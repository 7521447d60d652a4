import Fray.Proofs.CastingSet
import Fray.Proofs.Courses
import Fray.Proofs.Notices

/-! Watch over one effect. Whatever else is done may do as it likes with the rest of the world: it may end other
    effects, cast, schedule and cancel. It spares the effect that is watched as long as those who are called do; what
    the engine does for another effect or for a cast is none of its business. -/

namespace Fray

open Act

/-- A call of a channelled effect. -/
inductive Call where
  /-- It was asked whether it should end. -/
  | asked
  | pulsed
  /-- It was told that it ended. -/
  | finished
  deriving DecidableEq

/-- An effect that is watched, and the account that the host keeps of its calls. -/
structure Vigil (η β : Type) where
  effect : ChannelRef
  account : η → β
  /-- What a call in a tick makes of the account. -/
  enter : (tick : Nat) → Call → β → β

namespace World

variable {α η : Type}

/-- The skill of an effect is in the casting set of its caster. -/
def shows (w : World α η) (r : ChannelRef) : Bool :=
  w.isCasting (w.channel r).casting.state (w.channel r).casting.skill.id

theorem isCasting_updateCombatant {s : StateRef} {f : Combatant α → Combatant α} (hf : ∀ x, (f x).casting = x.casting)
    (w : World α η) (t : StateRef) (k : SkillId) :
    (after (updateCombatant s f) w).isCasting t k = w.isCasting t k := by
  show (Roster.state (w.roster.update s f) t).casting.contains k = _
  rw [Roster.state_update]
  split
  · rw [hf]
    rfl
  · rfl

theorem isCasting_setCasting_of_not {c : Casting α} {s : StateRef} {k : SkillId}
    (h : ¬ (c.state = s ∧ c.skill.id = k)) (on : Bool) (w : World α η) :
    (after (setCasting c on) w).isCasting s k = w.isCasting s k := by
  by_cases hc : c.state < w.roster.states.size
  · rw [isCasting_setCasting hc, if_neg (by simpa using h)]
  · have hsame : (after (setCasting c on) w).combatant s = w.combatant s := by
      show (w.roster.update c.state _).state s = _
      rw [Roster.state_update, if_neg fun h => hc h.2]
      rfl
    rw [isCasting, hsame]
    rfl

theorem noticesOf_announced {e : Event α} {r : ChannelRef} (h : ∀ b, e.herald? ≠ some (r, b)) (w : World α η) :
    (w.announced e).noticesOf r = w.noticesOf r := by
  rw [noticesOf, heralds_announced, noticesOf, List.filter_append]
  cases he : e.herald? with
  | none => simp
  | some x =>
    have hx : x.1 ≠ r := fun hx => h x.2 (by rw [he, ← hx])
    simp [hx]

end World

/-- Effects are added, and each keeps the cast that it is of. -/
structure World.Grown {α η : Type} (w v : World α η) : Prop where
  size : w.channels.size ≤ v.channels.size
  castings : ∀ i, i < w.channels.size → (v.channel i).casting = (w.channel i).casting

namespace World.Grown

variable {α η : Type} {w v u : World α η}

theorem of_channels (h : v.channels = w.channels) : w.Grown v :=
  ⟨Nat.le_of_eq (by rw [h]), fun i _ => by rw [World.channel, World.channel, h]⟩

theorem trans (h : w.Grown v) (h' : v.Grown u) : w.Grown u where
  size := Nat.le_trans h.size h'.size
  castings i hi := (h'.castings i (Nat.lt_of_lt_of_le hi h.size)).trans (h.castings i hi)

end World.Grown

namespace Vigil

variable {α η β : Type} (g : Vigil η β)

/-- The appointment is one of the effect. -/
def Owns (a : Appointment (Job α)) : Prop := a.job = .channel g.effect

/-- No other effect is of the same caster and skill. -/
def Alone (w : World α η) : Prop := ∀ i, i < w.channels.size → i ≠ g.effect →
  w.owns (w.channel g.effect).casting.state (w.channel g.effect).casting.skill.id i = false

/-- The engine is in a state in which it can be watched: no task is handed out twice. -/
structure Fit (w : World α η) : Prop where
  running : w.running = true
  known : g.effect < w.channels.size
  housed : (w.channel g.effect).casting.state < w.roster.states.size
  ordered : w.timetable.Ordered
  held : ∀ i id, w.phase i = .running id → id.val < w.timetable.nextId
  /-- The tasks of the effect are no other's. -/
  apart : ∀ a ∈ w.timetable.tasks, g.Owns a → ∀ i, i ≠ g.effect → w.phase i ≠ .running a.id

/-- Nothing happened to the effect. -/
structure Frame (w v : World α η) : Prop extends w.Grown v where
  phase : v.phase g.effect = w.phase g.effect
  states : w.roster.states.size ≤ v.roster.states.size
  turns : ∀ a, g.Owns a → (a ∈ v.timetable.tasks ↔ a ∈ w.timetable.tasks)
  account : g.account v.host = g.account w.host
  notices : v.noticesOf g.effect = w.noticesOf g.effect
  /-- Another effect of the same caster and skill could show it or hide it. -/
  shows : g.Alone v → v.shows g.effect = w.shows g.effect

/-- Within a tick, the effect is let be. -/
def Spares (w v : World α η) : Prop := g.Fit w → g.Fit v ∧ v.timetable.now = w.timetable.now ∧ g.Frame w v

/-- The host enters a call of the effect into its account. -/
def Notes (c : Call) (w v : World α η) : Prop :=
  ∃ host, v = { w with host } ∧ g.account host = g.enter w.timetable.now c (g.account w.host)

variable {g} {w v u : World α η}

/-! ### Frames -/

theorem Alone.of_grown (hv : g.Alone v) (h : w.Grown v) (hw : g.Fit w) : g.Alone w := fun i hi hne => by
  have hnot := hv i (Nat.lt_of_lt_of_le hi h.size) hne
  rw [h.castings _ hw.known] at hnot
  rwa [World.owns, h.castings i hi] at hnot

namespace Frame

theorem refl (w : World α η) : g.Frame w w :=
  ⟨.of_channels rfl, rfl, Nat.le_refl _, fun _ _ => Iff.rfl, rfl, rfl, fun _ => rfl⟩

theorem trans (h : g.Frame w v) (hv : g.Fit v) (h' : g.Frame v u) : g.Frame w u where
  toGrown := h.toGrown.trans h'.toGrown
  phase := h'.phase.trans h.phase
  states := Nat.le_trans h.states h'.states
  turns a ha := (h'.turns a ha).trans (h.turns a ha)
  account := h'.account.trans h.account
  notices := h'.notices.trans h.notices
  shows hu := (h'.shows hu).trans (h.shows (hu.of_grown h'.toGrown hv))

end Frame

theorem lasting_spares : Lasting (g.Spares (α := α)) where
  refl w hw := ⟨hw, rfl, .refl w⟩
  trans h h' hw := by
    obtain ⟨hv, hnow, hframe⟩ := h hw
    obtain ⟨hu, hnow', hframe'⟩ := h' hv
    exact ⟨hu, hnow'.trans hnow, hframe.trans hv hframe'⟩

theorem Spares.next (h : g.Spares w v) (h' : g.Fit v → g.Frame w v → g.Spares v u) : g.Spares w u := fun hw => by
  obtain ⟨hv, -, hframe⟩ := h hw
  exact lasting_spares.trans h (h' hv hframe) hw

/-- What touches no effect and no task spares every effect. -/
theorem Spares.aside (hrunning : v.running = w.running) (hchannels : v.channels = w.channels)
    (htimetable : v.timetable = w.timetable) (hstates : w.roster.states.size ≤ v.roster.states.size)
    (hcasting : ∀ s k, v.isCasting s k = w.isCasting s k) (haccount : g.account v.host = g.account w.host)
    (hnotices : v.noticesOf g.effect = w.noticesOf g.effect) : g.Spares w v := by
  have hchannel : ∀ i, v.channel i = w.channel i := fun i => by rw [World.channel, World.channel, hchannels]
  have hphase : ∀ i, v.phase i = w.phase i := fun i => by rw [World.phase, World.phase, hchannel]
  intro hw
  refine ⟨⟨hrunning.trans hw.running, hchannels ▸ hw.known, ?_, htimetable ▸ hw.ordered, fun i id hi => ?_,
    fun a ha how i hi => ?_⟩, by rw [htimetable], ⟨.of_channels hchannels, hphase _,
    hstates, fun a _ => by rw [htimetable], haccount, hnotices, fun _ => ?_⟩⟩
  · rw [hchannel]
    exact Nat.lt_of_lt_of_le hw.housed hstates
  · rw [htimetable]
    exact hw.held i id (hphase i ▸ hi)
  · rw [hphase]
    exact hw.apart a (htimetable ▸ ha) how i hi
  · rw [World.shows, World.shows, hchannel, hcasting]

theorem Notes.fit {c : Call} (h : g.Notes c w v) (hw : g.Fit w) : g.Fit v := by
  obtain ⟨host, rfl, -⟩ := h
  exact ⟨hw.running, hw.known, hw.housed, hw.ordered, hw.held, hw.apart⟩

/-! ### What the engine does for others -/

theorem note_spares (n : Note α) : Act.Within (g.Spares (α := α)) (World.note n) := fun _ =>
  .aside rfl rfl rfl (Nat.le_refl _) (fun _ _ => rfl) rfl rfl

theorem announced_spares {e : Event α} (h : ∀ b, e.herald? ≠ some (g.effect, b)) (w : World α η) :
    g.Spares w (w.announced e) :=
  .aside rfl rfl rfl (Nat.le_refl _) (fun _ _ => rfl) rfl (World.noticesOf_announced h w)

theorem tell_spares {e : Event α} (h : ∀ b, e.herald? ≠ some (g.effect, b)) {call : ListenerId → Act α η Unit}
    (hcall : ∀ id, Act.Within g.Spares (call id)) : Act.Within g.Spares (Listeners.tell e call) := fun w =>
  lasting_spares.trans (announced_spares h w) (Listeners.tell_within lasting_spares hcall w)

theorem updateCombatant_spares (s : StateRef) {f : Combatant α → Combatant α} (hf : ∀ x, (f x).casting = x.casting) :
    Act.Within g.Spares (World.updateCombatant (η := η) s f) := fun w =>
  .aside rfl rfl rfl (by simp [World.updateCombatant, Roster.update]) (World.isCasting_updateCombatant hf w) rfl rfl

theorem newChannel_spares (c : Casting α) : Act.Within (g.Spares (α := α)) (World.newChannel c) := by
  intro w hw
  have hchannel : ∀ i, i < w.channels.size → (after (World.newChannel c) w).channel i = w.channel i :=
    fun i hi => World.channel_newChannel c (Nat.ne_of_lt hi)
  have hphase := World.phase_newChannel c w
  have hsize : (after (World.newChannel c) w).channels.size = w.channels.size + 1 := by simp [World.newChannel]
  refine ⟨⟨hw.running, ?_, ?_, hw.ordered, fun i id hi => ?_, fun a ha how i hi => ?_⟩, rfl,
    ⟨⟨?_, fun i hi => by rw [hchannel i hi]⟩, hphase _, Nat.le_refl _, fun _ _ => Iff.rfl, rfl, rfl, fun _ => ?_⟩⟩
  · rw [hsize]
    exact Nat.lt_succ_of_lt hw.known
  · rw [hchannel _ hw.known]
    exact hw.housed
  · exact hw.held i id (hphase i ▸ hi)
  · rw [hphase]
    exact hw.apart a ha how i hi
  · rw [hsize]
    exact Nat.le_succ _
  · rw [World.shows, World.shows, hchannel _ hw.known]
    rfl

theorem setPhase_spares {i : ChannelRef} (hi : i ≠ g.effect) {p : Phase}
    (hp : ∀ id, p = .running id →
      id.val < w.timetable.nextId ∧ ∀ a ∈ w.timetable.tasks, g.Owns a → a.id ≠ id) :
    g.Spares w (after (World.setPhase i p) w) := by
  intro hw
  have hcasting := fun j => World.casting_setPhase (w := w) (r := i) p j
  have hphase : ∀ j, (after (World.setPhase i p) w).phase j = p ∧ j = i ∨
      (after (World.setPhase i p) w).phase j = w.phase j := fun j => by
    rw [World.phase_setPhase]
    split
    · next h => exact Or.inl ⟨rfl, h.1⟩
    · exact Or.inr rfl
  have hself : (after (World.setPhase i p) w).phase g.effect = w.phase g.effect := by
    rw [World.phase_setPhase, if_neg fun h => hi h.1.symm]
  have hsize : (after (World.setPhase i p) w).channels.size = w.channels.size := by simp [World.setPhase]
  refine ⟨⟨hw.running, hsize ▸ hw.known, ?_, hw.ordered, fun j id hj => ?_, fun a ha how j hj hrunning => ?_⟩, rfl,
    ⟨⟨Nat.le_of_eq hsize.symm, fun j _ => hcasting j⟩, hself, Nat.le_refl _, fun _ _ => Iff.rfl, rfl, rfl, fun _ => ?_⟩⟩
  · rw [hcasting]
    exact hw.housed
  · rcases hphase j with ⟨h, -⟩ | h
    · exact (hp id (h.symm.trans hj)).1
    · exact hw.held j id (h ▸ hj)
  · rcases hphase j with ⟨h, -⟩ | h
    · exact (hp a.id (h.symm.trans hrunning)).2 a ha how rfl
    · exact hw.apart a ha how j hj (h ▸ hrunning)
  · rw [World.shows, World.shows, hcasting]
    rfl

theorem setCasting_spares {i : ChannelRef} (hi : i ≠ g.effect) (hsize : i < w.channels.size) {c : Casting α}
    (hc : (w.channel i).casting = c) (on : Bool) : g.Spares w (after (World.setCasting c on) w) := by
  intro hw
  have hstates : (after (World.setCasting c on) w).roster.states.size = w.roster.states.size := by
    simp [World.setCasting, World.updateCombatant, Roster.update]
  refine ⟨⟨hw.running, hw.known, ?_, hw.ordered, hw.held, hw.apart⟩, rfl,
    ⟨.of_channels rfl, rfl, Nat.le_of_eq hstates.symm, fun _ _ => Iff.rfl, rfl, rfl, fun halone => ?_⟩⟩
  · rw [hstates]
    exact hw.housed
  · -- The caster or the skill is another, unless the effect is not alone.
    have hnot : w.owns (w.channel g.effect).casting.state (w.channel g.effect).casting.skill.id i = false :=
      halone i hsize hi
    rw [World.owns, hc] at hnot
    have hother : ¬ (c.state = (w.channel g.effect).casting.state ∧
        c.skill.id = (w.channel g.effect).casting.skill.id) := by simpa using hnot
    exact World.isCasting_setCasting_of_not hother on w

/-! ### The timetable -/

theorem enter_spares {j : Job α} (hj : j ≠ .channel g.effect) (delay period : Nat) :
    Act.Within g.Spares (Scheduling.enter (η := η) j delay period) := by
  intro w hw
  have hmem : ∀ a, g.Owns a → (a ∈ (w.timetable.schedule j delay period).2.tasks ↔ a ∈ w.timetable.tasks) := by
    intro a ha
    have hnew : a ≠ ⟨⟨w.timetable.nextId⟩, j, Tick.later w.timetable.now (max delay 1), period⟩ := by
      rintro rfl
      exact hj ha
    simp [Timetable.schedule, hnew]
  refine ⟨⟨hw.running, hw.known, hw.housed, hw.ordered.schedule j delay period, fun i id hi => ?_,
    fun a ha how i hi => ?_⟩, rfl,
    ⟨.of_channels rfl, rfl, Nat.le_refl _, hmem, rfl, rfl, fun _ => rfl⟩⟩
  · exact Nat.lt_succ_of_lt (hw.held i id hi)
  · exact hw.apart a ((hmem a how).mp ha) how i hi

theorem cancel_spares {id : TaskId} (hid : ∀ a ∈ w.timetable.tasks, g.Owns a → a.id ≠ id) :
    g.Spares w (after (Scheduling.ticked.cancel id) w) := by
  intro hw
  have hmem : ∀ a, g.Owns a → (a ∈ (w.timetable.cancel id).tasks ↔ a ∈ w.timetable.tasks) := by
    intro a ha
    simp only [Timetable.cancel, List.mem_filter, decide_eq_true_eq, and_iff_left_iff_imp]
    exact fun hmem => hid a hmem ha
  exact ⟨⟨hw.running, hw.known, hw.housed, hw.ordered.cancel id, hw.held,
    fun a ha how => hw.apart a ((hmem a how).mp ha) how⟩, rfl,
    ⟨.of_channels rfl, rfl, Nat.le_refl _, hmem, rfl, rfl, fun _ => rfl⟩⟩

/-- The turn of a task that is none of the effect. -/
theorem take_spares {id : TaskId} {j : Job α} {t : Timetable (Job α)} (htake : w.timetable.take id = some (j, t))
    (hid : ∀ a ∈ w.timetable.tasks, g.Owns a → a.id ≠ id) : g.Spares w { w with timetable := t } := by
  intro hw
  obtain ⟨b, hb, rfl, -, hnow, hnext, -, hmem⟩ := Timetable.mem_tasks_take hw.ordered.ascending htake
  have hturns : ∀ a, g.Owns a → (a ∈ t.tasks ↔ a ∈ w.timetable.tasks) := by
    intro a ha
    rw [hmem]
    constructor
    · rintro (⟨h, -⟩ | ⟨-, rfl⟩)
      · exact h
      · exact absurd rfl (hid b hb ha)
    · exact fun h => Or.inl ⟨h, hid a h ha⟩
  refine ⟨⟨hw.running, hw.known, hw.housed, hw.ordered.take htake, fun i id hi => ?_, fun a ha how => ?_⟩, hnow,
    ⟨.of_channels rfl, rfl, Nat.le_refl _, hturns, rfl, rfl, fun _ => rfl⟩⟩
  · show id.val < t.nextId
    rw [hnext]
    exact hw.held i id hi
  · exact hw.apart a ((hturns a how).mp ha) how

/-! ### Who is called -/

variable (g) in
/-- Whoever is called in the life of an effect spares the one that is watched; when that is called itself, the host
    enters it first. -/
structure Attended (l : Listeners α η) (e : Effects α η) : Prop where
  postCast : ∀ id c r, Act.Within g.Spares (l.postCast id c r)
  castStart : ∀ id caster skill, Act.Within g.Spares (l.castStart id caster skill)
  castEnd : ∀ id caster skill, Act.Within g.Spares (l.castEnd id caster skill)
  others : ∀ i, i ≠ g.effect → Act.Within g.Spares (e.shouldEnd i) ∧ Act.Within g.Spares (e.pulse i) ∧
    Act.Within g.Spares (e.onStart i) ∧ Act.Within g.Spares (e.onEnd i)
  onStart : Act.Within g.Spares (e.onStart g.effect)
  shouldEnd : ∀ w, ∃ u, g.Notes .asked w u ∧ g.Spares u (after (e.shouldEnd g.effect) w)
  pulse : ∀ w, ∃ u, g.Notes .pulsed w u ∧ g.Spares u (after (e.pulse g.effect) w)
  onEnd : ∀ w, ∃ u, g.Notes .finished w u ∧ g.Spares u (after (e.onEnd g.effect) w)

variable (g) in
/-- Handlers spare the effect too. -/
structure Minded (l : Listeners α η) (e : Effects α η) (h : Repertoire α η) : Prop extends g.Attended l e where
  perform : ∀ ref c r, Act.Within g.Spares (h.perform ref c r).run

variable {l : Listeners α η} {e : Effects α η} {h : Repertoire α η}

/-- Another effect ends. -/
theorem Attended.ending_spares (hm : g.Attended l e) {i : ChannelRef} (hi : i ≠ g.effect) (hsize : i < w.channels.size)
    {c : Casting α} (hc : (w.channel i).casting = c) (task : Option TaskId) :
    g.Spares w (after (World.ending l e i c task) w) := by
  have htell : Act.Within g.Spares (l.tellCastEnd i c.caster.entity c.skill.id) :=
    tell_spares (by simp [Event.herald?, hi]) fun id => hm.castEnd id _ _
  simp only [World.ending, after_bind]
  refine (Spares.next ((hm.others i hi).2.2.2 w) fun _ hframe => ?_).next fun _ _ =>
    lasting_spares.trans (htell _) (note_spares _ _)
  exact setCasting_spares hi (Nat.lt_of_lt_of_le hsize hframe.size) ((hframe.castings i hsize).trans hc) false

/-- Another effect is stopped. -/
theorem Attended.stop_spares (hm : g.Attended l e) {i : ChannelRef} (hi : i ≠ g.effect) :
    Act.Within g.Spares (World.stopChannel l e .ticked i).run := by
  intro w hw
  cases hphase : w.phase i with
  | idle =>
    rw [(World.run_stopChannel_idle l e .ticked hphase).2]
    exact lasting_spares.refl w hw
  | ended task =>
    rw [(World.run_stopChannel_ended l e .ticked hphase).2]
    exact lasting_spares.refl w hw
  | starting =>
    have hsize : i < w.channels.size := World.lt_size_of_phase (by simp [hphase])
    rw [(World.run_stopChannel_starting l e .ticked hphase hw.running).2]
    refine Spares.next (setPhase_spares hi (p := .ended none) (by simp)) (fun _ hframe => ?_) hw
    exact hm.ending_spares hi (Nat.lt_of_lt_of_le hsize hframe.size) (hframe.castings i hsize) none
  | running id =>
    have hsize : i < w.channels.size := World.lt_size_of_phase (by simp [hphase])
    rw [(World.run_stopChannel_running l e .ticked hphase hw.running).2]
    have hended : g.Spares w (after (World.setPhase i (.ended (some id))) w) := setPhase_spares hi (by simp)
    -- The task of the other effect is none of this one.
    have hcancelled : g.Spares w (after (Scheduling.ticked.cancel id) (after (World.setPhase i (.ended (some id))) w)) :=
      hended.next fun _ hframe => cancel_spares fun a ha how heq =>
        hw.apart a ((hframe.turns a how).mp ha) how i hi (heq ▸ hphase)
    refine hcancelled.next (fun _ hframe => ?_) hw
    exact hm.ending_spares hi (Nat.lt_of_lt_of_le hsize hframe.size) (hframe.castings i hsize) (some id)

/-- Another effect has a turn. -/
theorem Attended.turn_spares (hm : g.Attended l e) {i : ChannelRef} (hi : i ≠ g.effect) :
    Act.Within g.Spares (World.turnChannel l e .ticked i) := by
  intro w hw
  by_cases hactive : w.IsActive i
  · rw [World.run_turnChannel l e .ticked hactive hw.running]
    refine Spares.next ((hm.others i hi).1 w) (fun _ _ => ?_) hw
    split
    · exact hm.stop_spares hi _
    · exact (hm.others i hi).2.1 _
  · rw [World.run_turnChannel_of_not l e .ticked hactive]
    exact lasting_spares.refl w hw

/-- Another effect is started. -/
theorem Attended.start_spares (hm : g.Attended l e) {i : ChannelRef} (hi : i ≠ g.effect) (hsize : i < w.channels.size)
    (delay period : Nat) : g.Spares w (after (World.startChannel l e .ticked i delay period).run w) := by
  intro hw
  by_cases hphase : w.phase i = .idle
  · have htell : Act.Within g.Spares (l.tellCastStart i (w.channel i).casting.caster.entity
        (w.channel i).casting.skill.id) :=
      tell_spares (by simp [Event.herald?, hi]) fun id => hm.castStart id _ _
    have hbeginning : g.Spares w (after (World.beginning l e i (w.channel i).casting) w) := by
      have hbegun : g.Spares w (after (World.setPhase i .starting) w) := setPhase_spares hi (by simp)
      have hentered : g.Spares w
          (after (World.setCasting (w.channel i).casting true) (after (World.setPhase i .starting) w)) :=
        hbegun.next fun _ hframe =>
          setCasting_spares hi (Nat.lt_of_lt_of_le hsize hframe.size) (hframe.castings i hsize) true
      exact lasting_spares.trans (lasting_spares.trans hentered ((hm.others i hi).2.2.1 _)) (htell _)
    generalize hv : after (World.beginning l e i (w.channel i).casting) w = v at hbeginning
    obtain ⟨u, hu⟩ : ∃ u, after (Scheduling.enter (.channel i) delay (max period 1)) v = u := ⟨_, rfl⟩
    obtain ⟨id, hid⟩ : ∃ id, answer (Scheduling.enter (.channel i) delay (max period 1)) v = id := ⟨_, rfl⟩
    rw [(World.run_startChannel_idle l e .ticked delay period hphase hw.running hv hid hu).2]
    have hjob : (.channel i : Job α) ≠ .channel g.effect := by simpa using hi
    have hentered : g.Spares w u := hbeginning.next fun _ _ => hu ▸ enter_spares hjob delay (max period 1) v
    -- The task that is handed out is new, and none of the effect's.
    have hhanded : id.val < u.timetable.nextId := by
      rw [← hid, ← hu]
      exact Nat.lt_succ_self _
    have hnew : ∀ a ∈ u.timetable.tasks, g.Owns a → a.id ≠ id := by
      intro a ha how heq
      rw [← hu] at ha
      rcases List.mem_append.mp ha with ha | ha
      · have hlt : a.id.val < v.timetable.nextId := (hbeginning hw).1.ordered.below a ha
        rw [heq, ← hid] at hlt
        exact Nat.lt_irrefl _ hlt
      · obtain rfl := List.mem_singleton.mp ha
        exact hjob how
    refine (hentered.next fun _ _ => ?_).next (fun _ _ => note_spares _ _) hw
    split
    · exact setPhase_spares hi fun id' hid' => by
        obtain rfl : id = id' := by simpa using hid'
        exact ⟨hhanded, hnew⟩
    · have hended : g.Spares u (after (World.setPhase i (.ended (some id))) u) := setPhase_spares hi (by simp)
      exact hended.next fun _ hframe => cancel_spares fun a ha how => hnew a ((hframe.turns a how).mp ha) how
  · obtain ⟨fault, -, -, hafter⟩ := World.run_startChannel_begun l e .ticked delay period hphase hw.running
    rw [hafter]
    exact lasting_spares.refl w hw

/-- A cast takes effect. -/
theorem Minded.cast_spares [Amount α] [Host η α] (hm : g.Minded l e h) (c : Casting α) (r : Reply) :
    Act.Within g.Spares (World.castInstantly l h c r).run := by
  intro w
  rw [World.castInstantly, Try.run_get_bind, after_get_bind]
  have hput : Act.Within g.Spares (World.updateCombatant (α := α) (η := η) c.state fun f =>
      { f with cooldowns := f.cooldowns.put c.skill.id (Host.tick w.host) (ticksOfSeconds (w.parameter c "cooldown")) }) :=
    updateCombatant_spares _ fun _ => rfl
  refine lasting_spares.tryBind (x := Try.ofAct _) hput (fun _ => ?_) w
  refine lasting_spares.tryBind (hm.perform _ c r) fun _ => ?_
  exact tell_spares (by simp [Event.herald?]) fun id => hm.postCast id c r

/-- A job that is no turn of the effect. -/
theorem Minded.run_spares [Amount α] [Host η α] (hm : g.Minded l e h) {j : Job α} (hj : j ≠ .channel g.effect) :
    Act.Within g.Spares (World.runJob l e h .ticked j) := by
  cases j with
  | channel i => exact hm.turn_spares (by simpa using hj)
  | delayedCast c r =>
    intro w
    simp only [World.runJob, after_get_bind]
    split
    · refine lasting_spares.bind (hm.cast_spares c r) (fun answer => ?_) w
      cases answer with
      | ok _ => exact lasting_spares.pure ()
      | error fault => exact note_spares _
    · exact lasting_spares.refl w

end Vigil
end Fray
