import Fray.Proofs.Vigil

/-! The turns of a repeating effect that is watched. Its task moves on by a period at every turn, before the effect is
    asked whether it should end; then it pulses or ends, as it answered, and whatever else runs in the tick spares
    it. -/

namespace Fray

open Act

namespace World

variable {α η : Type}

/-- The next tick has begun. -/
def opened (w : World α η) : World α η := { w with timetable := w.timetable.advance }

/-- The world in which a task has its turn, in the next tick. -/
def turnOf (run : Job α → Act α η Unit) (id : TaskId) (w : World α η) : World α η :=
  let v := after ((w.opened.timetable.due.takeWhile (· ≠ id)).foldlM (Timetable.turn run) 0) w.opened
  match v.timetable.take id with
  | none => v
  | some (_, t) => { v with timetable := t }

variable {run : Job α → Act α η Unit} {id : TaskId} {w : World α η}

theorem after_turn_of_none (h : w.timetable.take id = none) (ran : Nat) : after (Timetable.turn run ran id) w = w := by
  have htimetable : HasTimetable.timetable w = w.timetable := rfl
  simp only [Timetable.turn, after_get_bind, htimetable, h, after_pure]

theorem after_turn_of_some {j : Job α} {t : Timetable (Job α)} (h : w.timetable.take id = some (j, t)) (ran : Nat) :
    after (Timetable.turn run ran id) w = after (run j) { w with timetable := t } := by
  have htimetable : HasTimetable.timetable w = w.timetable := rfl
  simp only [Timetable.turn, after_get_bind, htimetable, h]
  rfl

end World

/-- The tasks that are due before another, and those after it. -/
theorem Timetable.due_eq {κ : Type} {t : Timetable κ} (ht : t.Ascending) {a : Appointment κ} (ha : a ∈ t.tasks)
    (hnext : a.next ≤ t.now) :
    ∃ rest, t.due = t.due.takeWhile (· ≠ a.id) ++ a.id :: rest ∧ a.id ∉ t.due.takeWhile (· ≠ a.id) ∧ a.id ∉ rest := by
  have hdue : a.id ∈ t.due := Timetable.mem_due.mpr ⟨a, ha, hnext, rfl⟩
  have hnodup : t.due.Nodup := ht.nodup_ids.sublist (List.filter_sublist.map _)
  obtain ⟨before, rest, heq⟩ := List.append_of_mem hdue
  rw [heq] at hnodup
  have hbefore : a.id ∉ before := fun h => List.disjoint_of_nodup_append hnodup h List.mem_cons_self
  have hrest : a.id ∉ rest := (List.nodup_cons.mp hnodup.of_append_right).1
  have htake : (before ++ a.id :: rest).takeWhile (· ≠ a.id) = before := by
    rw [List.takeWhile_append_of_pos fun i hi => by simpa using ne_of_mem_of_not_mem hi hbefore]
    simp
  rw [heq, htake]
  exact ⟨rest, rfl, hbefore, hrest⟩

/-- Where an effect stands. -/
structure Standing (α : Type) where
  tick : Nat
  phase : Phase
  /-- Its appointments. -/
  turns : List (Appointment (Job α))
  /-- Whether its skill is in the casting set of its caster. -/
  shown : Bool

namespace Vigil

variable {α η β : Type} {g : Vigil η β} {w v u : World α η}

variable (g) in
/-- What calls make of the account. -/
def entered (cs : List (Nat × Call)) (b : β) : β := cs.foldl (fun b x => g.enter x.1 x.2 b) b

theorem entered_append (cs ds : List (Nat × Call)) (b : β) :
    g.entered (cs ++ ds) b = g.entered ds (g.entered cs b) := List.foldl_append

variable (g) in
/-- Since the origin `o` the effect had the calls `cs` and its listeners the notices `ns`, and now it stands at `s`. -/
structure Since (o : World α η) (cs : List (Nat × Call)) (ns : List Beat) (s : Standing α) (w : World α η) :
    Prop extends o.Grown w where
  fit : g.Fit w
  known : g.effect < o.channels.size
  tick : w.timetable.now = s.tick
  phase : w.phase g.effect = s.phase
  turns : ∀ a, g.Owns a → (a ∈ w.timetable.tasks ↔ a ∈ s.turns)
  shown : g.Alone w → w.shows g.effect = s.shown
  account : g.account w.host = g.entered cs (g.account o.host)
  notices : w.noticesOf g.effect = o.noticesOf g.effect ++ ns

variable {o : World α η} {cs : List (Nat × Call)} {ns : List Beat} {s : Standing α} {c : Call}

namespace Since

theorem casting (h : g.Since o cs ns s w) : (w.channel g.effect).casting = (o.channel g.effect).casting :=
  h.castings _ h.known

theorem spared (h : g.Since o cs ns s w) (hv : g.Spares w v) : g.Since o cs ns s v := by
  obtain ⟨hfit, hnow, hframe⟩ := hv h.fit
  exact ⟨h.toGrown.trans hframe.toGrown, hfit, h.known, hnow.trans h.tick, hframe.phase.trans h.phase,
    fun a how => (hframe.turns a how).trans (h.turns a how),
    fun halone => (hframe.shows halone).trans (h.shown (halone.of_grown hframe.toGrown h.fit)),
    hframe.account.trans h.account, hframe.notices.trans h.notices⟩

theorem noted (h : g.Since o cs ns s w) (hv : g.Notes c w v) : g.Since o (cs ++ [(s.tick, c)]) ns s v := by
  have hfit := hv.fit h.fit
  obtain ⟨host, rfl, haccount⟩ := hv
  refine ⟨h.toGrown.trans (.of_channels rfl), hfit, h.known, h.tick, h.phase, h.turns, h.shown, ?_, h.notices⟩
  rw [haccount, h.account, h.tick, entered_append]
  rfl

theorem setPhase (h : g.Since o cs ns s w) {p : Phase} (hp : ∀ id, p = .running id → id.val < w.timetable.nextId) :
    g.Since o cs ns { s with phase := p } (after (World.setPhase g.effect p) w) := by
  have hcasting := fun i => World.casting_setPhase (w := w) (r := g.effect) p i
  have hself := World.phase_setPhase_self h.fit.known p
  have hother : ∀ i, i ≠ g.effect → (after (World.setPhase g.effect p) w).phase i = w.phase i := fun i hi => by
    rw [World.phase_setPhase, if_neg fun h => hi h.1]
  have hsize : (after (World.setPhase g.effect p) w).channels.size = w.channels.size := by simp [World.setPhase]
  refine ⟨h.toGrown.trans ⟨Nat.le_of_eq hsize.symm, fun i _ => hcasting i⟩,
    ⟨h.fit.running, hsize ▸ h.fit.known, ?_, h.fit.ordered, fun i id hi => ?_, fun a ha how i hi => ?_⟩,
    h.known, h.tick, hself, h.turns, fun halone => ?_, h.account, h.notices⟩
  · rw [hcasting]
    exact h.fit.housed
  · by_cases heq : i = g.effect
    · subst heq
      exact hp id (hself.symm.trans hi)
    · exact h.fit.held i id ((hother i heq).symm.trans hi)
  · rw [hother i hi]
    exact h.fit.apart a ha how i hi
  · have halone' : g.Alone w :=
      halone.of_grown ⟨Nat.le_of_eq hsize.symm, fun i _ => hcasting i⟩ h.fit
    rw [← h.shown halone', World.shows, World.shows, hcasting]
    rfl

theorem setCasting (h : g.Since o cs ns s w) (on : Bool) :
    g.Since o cs ns { s with shown := on } (after (World.setCasting (o.channel g.effect).casting on) w) := by
  have hhoused := h.fit.housed
  rw [h.casting] at hhoused
  have hstates : (after (World.setCasting (o.channel g.effect).casting on) w).roster.states.size =
      w.roster.states.size := by simp [World.setCasting, World.updateCombatant, Roster.update]
  refine ⟨h.toGrown.trans (.of_channels rfl), ⟨h.fit.running, h.fit.known, ?_, h.fit.ordered, h.fit.held, h.fit.apart⟩,
    h.known, h.tick, h.phase, h.turns, fun _ => ?_, h.account, h.notices⟩
  · rw [hstates]
    exact h.fit.housed
  · have hchannel : (after (World.setCasting (o.channel g.effect).casting on) w).channel g.effect =
        w.channel g.effect := rfl
    rw [World.shows, hchannel, h.casting, World.isCasting_setCasting hhoused]
    simp

theorem announced (h : g.Since o cs ns s w) {e : Event α} {b : Beat} (he : e.herald? = some (g.effect, b)) :
    g.Since o cs (ns ++ [b]) s (w.announced e) := by
  refine ⟨h.toGrown.trans (.of_channels rfl),
    ⟨h.fit.running, h.fit.known, h.fit.housed, h.fit.ordered, h.fit.held, h.fit.apart⟩, h.known, h.tick, h.phase,
    h.turns, h.shown, h.account, ?_⟩
  have hnotices : (w.announced e).noticesOf g.effect = w.noticesOf g.effect ++ [b] := by
    simp [World.noticesOf, World.heralds_announced, he]
  rw [hnotices, h.notices, List.append_assoc]

/-- The listeners are told of the effect, and spare it. -/
theorem told (h : g.Since o cs ns s w) {e : Event α} {b : Beat} (he : e.herald? = some (g.effect, b))
    {call : ListenerId → Act α η Unit} (hcall : ∀ id, Act.Within g.Spares (call id)) :
    g.Since o cs (ns ++ [b]) s (after (Listeners.tell e call) w) :=
  (h.announced he).spared (Listeners.tell_within lasting_spares hcall w)

theorem opened (h : g.Since o cs ns s w) : g.Since o cs ns { s with tick := s.tick + 1 } w.opened :=
  ⟨h.toGrown.trans (.of_channels rfl),
    ⟨h.fit.running, h.fit.known, h.fit.housed, h.fit.ordered.advance, h.fit.held, h.fit.apart⟩, h.known,
    congrArg (· + 1) h.tick, h.phase, h.turns, h.shown, h.account, h.notices⟩

/-- The effect enters the timetable. -/
theorem enter (h : g.Since o cs ns s w) (hturns : s.turns = []) (delay period : Nat) :
    g.Since o cs ns
      { s with turns := [⟨⟨w.timetable.nextId⟩, .channel g.effect, Tick.later s.tick (max delay 1), period⟩] }
      (after (Scheduling.enter (.channel g.effect) delay period) w) := by
  have hnone : ∀ a ∈ w.timetable.tasks, ¬ g.Owns a := fun a ha how => by
    have hmem := (h.turns a how).mp ha
    simp [hturns] at hmem
  refine ⟨h.toGrown.trans (.of_channels rfl),
    ⟨h.fit.running, h.fit.known, h.fit.housed, h.fit.ordered.schedule _ _ _, fun i id hi => ?_,
      fun a ha how i hi hrunning => ?_⟩,
    h.known, h.tick, h.phase, fun a how => ?_, h.shown, h.account, h.notices⟩
  · exact Nat.lt_succ_of_lt (h.fit.held i id hi)
  · rcases List.mem_append.mp ha with ha | ha
    · exact hnone a ha how
    · -- The task that is handed out is nobody's yet.
      obtain rfl := List.mem_singleton.mp ha
      exact Nat.lt_irrefl _ (h.fit.held i _ hrunning)
  · rw [← h.tick]
    constructor
    · intro ha
      exact (List.mem_append.mp ha).resolve_left fun ha => hnone a ha how
    · exact fun ha => List.mem_append_right _ ha

/-- The task of the effect has its turn. -/
theorem take (h : g.Since o cs ns s w) {a : Appointment (Job α)} (hturns : s.turns = [a]) (how : g.Owns a)
    (hperiod : a.period ≠ 0) :
    ∃ t, w.timetable.take a.id = some (.channel g.effect, t) ∧
      g.Since o cs ns { s with turns := [{ a with next := Tick.later s.tick a.period }] }
        { w with timetable := t } := by
  have ha : a ∈ w.timetable.tasks := (h.turns a how).mpr (by simp [hturns])
  cases htake : w.timetable.take a.id with
  | none => exact absurd rfl (Timetable.take_eq_none_iff.mp htake a ha)
  | some taken =>
    obtain ⟨j, t⟩ := taken
    obtain ⟨b, hb, hid, rfl, hnow, hnext, -, hmem⟩ := Timetable.mem_tasks_take h.fit.ordered.ascending htake
    obtain rfl := h.fit.ordered.ascending.eq_of_id_eq hb ha hid
    have hmoved : ∀ a', a' ∈ t.tasks ∧ g.Owns a' → a' = { b with next := Tick.later s.tick b.period } := by
      rintro a' ⟨ha', how'⟩
      rcases (hmem a').mp ha' with ⟨hold, hne⟩ | ⟨-, rfl⟩
      · have hone := (h.turns a' how').mp hold
        rw [hturns, List.mem_singleton] at hone
        exact absurd (congrArg Appointment.id hone) hne
      · rw [h.tick]
    have hthere : { b with next := Tick.later s.tick b.period } ∈ t.tasks :=
      (hmem _).mpr (Or.inr ⟨hperiod, by rw [h.tick]⟩)
    refine ⟨t, by rw [how], h.toGrown.trans (.of_channels rfl),
      ⟨h.fit.running, h.fit.known, h.fit.housed, h.fit.ordered.take htake, fun i id hi => ?_,
        fun a' ha' how' i hi => ?_⟩,
      h.known, hnow.trans h.tick, h.phase, fun a' how' => ?_, h.shown, h.account, h.notices⟩
    · show id.val < t.nextId
      rw [hnext]
      exact h.fit.held i id hi
    · rw [hmoved a' ⟨ha', how'⟩]
      exact h.fit.apart b ha how i hi
    · rw [List.mem_singleton]
      exact ⟨fun ha' => hmoved a' ⟨ha', how'⟩, fun heq => heq ▸ hthere⟩

/-- The task of the effect is cancelled. -/
theorem cancel (h : g.Since o cs ns s w) {a : Appointment (Job α)} (hturns : s.turns = [a]) :
    g.Since o cs ns { s with turns := [] } (after (Scheduling.ticked.cancel a.id) w) := by
  have hnone : ∀ b ∈ (w.timetable.cancel a.id).tasks, ¬ g.Owns b := fun b hb how => by
    obtain ⟨hb, hne⟩ := List.mem_filter.mp hb
    have hone := (h.turns b how).mp hb
    rw [hturns, List.mem_singleton] at hone
    simp [hone] at hne
  refine ⟨h.toGrown.trans (.of_channels rfl),
    ⟨h.fit.running, h.fit.known, h.fit.housed, h.fit.ordered.cancel _, h.fit.held,
      fun b hb how => absurd how (hnone b hb)⟩,
    h.known, h.tick, h.phase, fun b how => ?_, h.shown, h.account, h.notices⟩
  exact iff_of_false (fun hb => hnone b hb how) (by simp)

end Since

/-! ### The start -/

variable {l : Listeners α η} {e : Effects α η} {id : TaskId}

/-- The effect is started, and keeps its first appointment in mind. -/
theorem Since.start (hm : g.Attended l e) (h : g.Since o cs ns s w) (hphase : s.phase = .idle) (hturns : s.turns = [])
    (delay period : Nat) : ∃ id, answer (World.startChannel l e .ticked g.effect delay period).run w = .ok id ∧
      g.Since o cs (ns ++ [.announced])
        ⟨s.tick, .running id, [⟨id, .channel g.effect, Tick.later s.tick (max delay 1), max period 1⟩], true⟩
        (after (World.startChannel l e .ticked g.effect delay period).run w) := by
  have hbegun := h.setPhase (p := .starting) (by simp)
  have hentered := (hbegun.setCasting true).spared (hm.onStart _)
  have htold : g.Since o cs (ns ++ [.announced]) _
      (after (World.beginning l e g.effect (o.channel g.effect).casting) w) :=
    hentered.told rfl fun i => hm.castStart i _ _
  rw [← h.casting] at htold
  generalize hv : after (World.beginning l e g.effect (w.channel g.effect).casting) w = v at htold
  have hscheduled := htold.enter hturns delay (max period 1)
  generalize hu : after (Scheduling.enter (.channel g.effect) delay (max period 1)) v = u at hscheduled
  have hid : answer (Scheduling.enter (.channel g.effect) delay (max period 1)) v = ⟨v.timetable.nextId⟩ := rfl
  obtain ⟨hanswer, hafter⟩ := World.run_startChannel_idle l e .ticked delay period (h.phase.trans hphase)
    h.fit.running hv hid hu
  refine ⟨_, hanswer, ?_⟩
  rw [hafter, if_pos hscheduled.phase]
  exact (hscheduled.setPhase (p := .running ⟨v.timetable.nextId⟩) fun id hid => by
    obtain rfl : (⟨v.timetable.nextId⟩ : TaskId) = id := by simpa using hid
    rw [← hu]
    exact Nat.lt_succ_self _).spared (note_spares _ _)

/-! ### A turn -/

/-- The effect is asked, and answers that it goes on. -/
theorem Since.turn_pulses (hm : g.Attended l e) (h : g.Since o cs ns s w) (hphase : s.phase = .running id)
    (hanswer : answer (e.shouldEnd g.effect) w = false) :
    g.Since o (cs ++ [(s.tick, .asked), (s.tick, .pulsed)]) ns s
      (after (World.turnChannel l e .ticked g.effect) w) := by
  obtain ⟨u, hnoted, hspared⟩ := hm.shouldEnd w
  have hasked := (h.noted hnoted).spared hspared
  obtain ⟨u', hnoted', hspared'⟩ := hm.pulse (after (e.shouldEnd g.effect) w)
  have hpulsed := (hasked.noted hnoted').spared hspared'
  rw [World.run_turnChannel l e .ticked (Or.inr ⟨id, h.phase.trans hphase⟩) h.fit.running, hanswer, if_neg (by simp)]
  rwa [List.append_assoc] at hpulsed

/-- The effect is asked, and answers that it ends. -/
theorem Since.turn_ends (hm : g.Attended l e) (h : g.Since o cs ns s w) {a : Appointment (Job α)}
    (hphase : s.phase = .running a.id) (hturns : s.turns = [a])
    (hanswer : answer (e.shouldEnd g.effect) w = true) :
    g.Since o (cs ++ [(s.tick, .asked), (s.tick, .finished)]) (ns ++ [.retired])
      ⟨s.tick, .ended (some a.id), [], false⟩ (after (World.turnChannel l e .ticked g.effect) w) := by
  obtain ⟨u, hnoted, hspared⟩ := hm.shouldEnd w
  have hasked := (h.noted hnoted).spared hspared
  rw [World.run_turnChannel l e .ticked (Or.inr ⟨a.id, h.phase.trans hphase⟩) h.fit.running, hanswer, if_pos rfl]
  generalize after (e.shouldEnd g.effect) w = b at hasked
  rw [(World.run_stopChannel_running l e .ticked (hasked.phase.trans hphase) hasked.fit.running).2, hasked.casting]
  have hended := hasked.setPhase (p := .ended (some a.id)) (by simp)
  have hcancelled := hended.cancel hturns
  obtain ⟨u', hnoted', hspared'⟩ := hm.onEnd (after (Scheduling.ticked.cancel a.id)
    (after (World.setPhase g.effect (.ended (some a.id))) b))
  have hfinished := (hcancelled.noted hnoted').spared hspared'
  have hleft := hfinished.setCasting false
  have htold : g.Since o _ (ns ++ [.retired]) _ (after (l.tellCastEnd g.effect
      (o.channel g.effect).casting.caster.entity (o.channel g.effect).casting.skill.id) _) :=
    hleft.told rfl fun i => hm.castEnd i _ _
  rw [List.append_assoc] at htold
  exact htold.spared (note_spares _ _)

/-! ### A tick -/

variable [Amount α] [Host η α] {h : Repertoire α η}

theorem Minded.spares_turn (hm : g.Minded l e h) (hid : ∀ a ∈ w.timetable.tasks, g.Owns a → a.id ≠ id) (ran : Nat) :
    g.Spares w (after (Timetable.turn (World.runJob l e h .ticked) ran id) w) := by
  intro hw
  cases htake : w.timetable.take id with
  | none =>
    rw [World.after_turn_of_none htake]
    exact lasting_spares.refl w hw
  | some taken =>
    obtain ⟨j, t⟩ := taken
    rw [World.after_turn_of_some htake]
    obtain ⟨a, ha, rfl, rfl, -⟩ := Timetable.mem_tasks_take hw.ordered.ascending htake
    exact lasting_spares.trans (take_spares htake hid) (hm.run_spares (fun hown => hid a ha hown rfl) _) hw

/-- The turns of tasks that are none of the effect. -/
theorem Minded.spares_turns (hm : g.Minded l e h) {ids : List TaskId}
    (hids : ∀ id ∈ ids, ∀ a ∈ w.timetable.tasks, g.Owns a → a.id ≠ id) (ran : Nat) :
    g.Spares w (after (ids.foldlM (Timetable.turn (World.runJob l e h .ticked)) ran) w) := by
  induction ids generalizing w ran with
  | nil => exact lasting_spares.refl w
  | cons id ids ih =>
    rw [List.foldlM_cons, after_bind]
    obtain ⟨hfirst, hrest⟩ := List.forall_mem_cons.mp hids
    refine (hm.spares_turn hfirst ran).next fun _ hframe => ih (fun i hi a ha how => ?_) _
    exact hrest i hi a ((hframe.turns a how).mp ha) how

/-- A tick in which the effect has no turn. -/
theorem Since.tick_waits (hm : g.Minded l e h) (hs : g.Since o cs ns s w) (hlate : ∀ a ∈ s.turns, s.tick + 1 < a.next) :
    g.Since o cs ns { s with tick := s.tick + 1 } (after (World.runTick l e h .ticked) w) := by
  have hopened := hs.opened
  refine hopened.spared (hm.spares_turns (fun id hid a ha how heq => ?_) 0)
  obtain ⟨b, hb, hnext, rfl⟩ := Timetable.mem_due.mp hid
  obtain rfl := hopened.fit.ordered.ascending.eq_of_id_eq ha hb heq
  have hlate' := hlate a ((hs.turns a how).mp ha)
  rw [← hs.tick] at hlate'
  exact Nat.not_lt_of_le hnext hlate'

/-- A tick in which the effect has its turn. -/
theorem Since.tick_turns (hm : g.Minded l e h) (hs : g.Since o cs ns s w) {a : Appointment (Job α)}
    (hturns : s.turns = [a]) (how : g.Owns a) (hnext : a.next = s.tick + 1) (hperiod : a.period ≠ 0) :
    g.Since o cs ns { s with tick := s.tick + 1, turns := [{ a with next := Tick.later (s.tick + 1) a.period }] }
        (w.turnOf (World.runJob l e h .ticked) a.id) ∧
      ∀ {cs' ns' s'}, (∀ b ∈ s'.turns, b.id = a.id) →
        g.Since o cs' ns' s' (after (World.turnChannel l e .ticked g.effect)
          (w.turnOf (World.runJob l e h .ticked) a.id)) →
        g.Since o cs' ns' s' (after (World.runTick l e h .ticked) w) := by
  have hopened := hs.opened
  have ha : a ∈ w.opened.timetable.tasks := (hopened.turns a how).mpr (by simp [hturns])
  have hdue : a.next ≤ w.opened.timetable.now := Nat.le_of_eq (hnext.trans hopened.tick.symm)
  obtain ⟨rest, hsplit, hbefore, hrest⟩ := Timetable.due_eq hopened.fit.ordered.ascending ha hdue
  -- The effect has no task but this one, and this has no turn before.
  have hspares : g.Spares w.opened (after ((w.opened.timetable.due.takeWhile (· ≠ a.id)).foldlM
      (Timetable.turn (World.runJob l e h .ticked)) 0) w.opened) := by
    refine hm.spares_turns (fun id hid b hb how' => ?_) 0
    have hone := (hopened.turns b how').mp hb
    rw [hturns, List.mem_singleton] at hone
    subst hone
    exact fun hb' => hbefore (hb' ▸ hid)
  obtain ⟨t, htake, htaken⟩ := (hopened.spared hspares).take hturns how hperiod
  have hturn : w.turnOf (World.runJob l e h .ticked) a.id =
      { (after ((w.opened.timetable.due.takeWhile (· ≠ a.id)).foldlM
          (Timetable.turn (World.runJob l e h .ticked)) 0) w.opened) with timetable := t } := by
    simp only [World.turnOf, htake]
  rw [hturn]
  refine ⟨htaken, fun hids hturned => ?_⟩
  have htick : after (World.runTick l e h .ticked) w =
      after (w.opened.timetable.due.foldlM (Timetable.turn (World.runJob l e h .ticked)) 0) w.opened := rfl
  rw [htick, hsplit, List.foldlM_append, after_bind, List.foldlM_cons, after_bind, World.after_turn_of_some htake]
  refine hturned.spared (hm.spares_turns (fun id hid b hb how' hb' => ?_) _)
  have hmem := hids b ((hturned.turns b how').mp hb)
  exact hrest (hmem ▸ hb' ▸ hid)

end Vigil
end Fray
