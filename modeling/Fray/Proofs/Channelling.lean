import Fray.Proofs.Trails

/-! What effects, listeners and the scheduler do when they are called. They may do anything that leaves effects alone,
    and call the engine to start, turn and stop any effects, from within any call and to any depth; whatever comes of
    that has a trail, and every effect lives on it as it should. -/

namespace Fray

open Act

namespace World

variable {α η : Type} {w : World α η} {r : ChannelRef} (l : Listeners α η) (e : Effects α η) (s : Scheduling α η)

/-! ### The calls of the engine -/

/-- An effect begins, and is told so before anyone else. -/
def onset (r : ChannelRef) (c : Casting α) : Act α η Unit := do
  setPhase r .starting
  setCasting c true
  e.onStart r

/-- What comes before the scheduler hears of an effect. -/
def beginning (r : ChannelRef) (c : Casting α) : Act α η Unit := do
  setPhase r .starting
  setCasting c true
  e.onStart r
  l.tellCastStart r c.caster.entity c.skill.id

/-- What follows when an effect has ended. -/
def ending (r : ChannelRef) (c : Casting α) (task : Option TaskId) : Act α η Unit := do
  e.onEnd r
  setCasting c false
  l.tellCastEnd r c.caster.entity c.skill.id
  note (.channelEnded c.skill.id task)

theorem run_stopChannel_idle (h : w.phase r = .idle) :
    answer (stopChannel l e s r).run w = .error .notScheduled ∧ after (stopChannel l e s r).run w = w := by
  rw [stopChannel, Try.run_get_bind, answer_get_bind, after_get_bind, h]
  exact ⟨rfl, rfl⟩

theorem run_stopChannel_ended {task : Option TaskId} (h : w.phase r = .ended task) :
    answer (stopChannel l e s r).run w = .ok () ∧ after (stopChannel l e s r).run w = w := by
  rw [stopChannel, Try.run_get_bind, answer_get_bind, after_get_bind, h]
  exact ⟨rfl, rfl⟩

theorem run_stopChannel_starting (h : w.phase r = .starting) (hw : w.running = true) :
    answer (stopChannel l e s r).run w = .ok () ∧
      after (stopChannel l e s r).run w =
        after (ending l e r (w.channel r).casting none) (after (setPhase r (.ended none)) w) := by
  have hrunning : (after (setPhase r (.ended none)) w).running = true := hw
  rw [stopChannel, Try.run_get_bind, answer_get_bind, after_get_bind, h]
  exact ⟨rfl, by simp [stopChannel.finish, ending, hrunning]⟩

theorem run_stopChannel_running {id : TaskId} (h : w.phase r = .running id) (hw : w.running = true) :
    answer (stopChannel l e s r).run w = .ok () ∧
      after (stopChannel l e s r).run w = after (ending l e r (w.channel r).casting (some id))
        (after (s.cancel id) (after (setPhase r (.ended (some id))) w)) := by
  have hrunning : (after (setPhase r (.ended (some id))) w).running = true := hw
  rw [stopChannel, Try.run_get_bind, answer_get_bind, after_get_bind, h]
  exact ⟨rfl, by simp [stopChannel.finish, ending, hrunning]⟩

variable (delay period : Nat)

theorem run_startChannel_begun (h : w.phase r ≠ .idle) (hw : w.running = true) :
    ∃ fault : Fault α, fault.kind = .illegalState ∧
      answer (startChannel l e s r delay period).run w = .error fault ∧
      after (startChannel l e s r delay period).run w = w := by
  cases hp : w.phase r with
  | idle => exact absurd hp h
  | starting => exact ⟨.beingScheduled, rfl, by simp [startChannel, hw, hp], by simp [startChannel, hw, hp]⟩
  | running id => exact ⟨.alreadyScheduled id, rfl, by simp [startChannel, hw, hp], by simp [startChannel, hw, hp]⟩
  | ended task =>
    cases task with
    | none => exact ⟨.beingScheduled, rfl, by simp [startChannel, hw, hp], by simp [startChannel, hw, hp]⟩
    | some id => exact ⟨.alreadyScheduled id, rfl, by simp [startChannel, hw, hp], by simp [startChannel, hw, hp]⟩

theorem run_startChannel_idle (h : w.phase r = .idle) (hw : w.running = true) {v u : World α η} {id : TaskId}
    (hv : after (beginning l e r (w.channel r).casting) w = v)
    (hid : answer (s.schedule (.channel r) delay (max period 1)) v = id)
    (hu : after (s.schedule (.channel r) delay (max period 1)) v = u) :
    answer (startChannel l e s r delay period).run w = .ok id ∧
      after (startChannel l e s r delay period).run w =
        after (note (.channelStarted (w.channel r).casting.skill.id id))
          (if u.phase r = .starting then after (setPhase r (.running id)) u
          else after (s.cancel id) (after (setPhase r (.ended (some id))) u)) := by
  simp only [beginning, after_bind] at hv
  constructor
  · simp [startChannel, hw, h, hv, hid]
  · by_cases hp : u.phase r = .starting
    · simp [startChannel, hw, h, hv, hid, hu, hp]
    · simp [startChannel, hw, h, hv, hid, hu, hp]

/-- An effect has its turn while it is starting or running. -/
def IsActive (w : World α η) (r : ChannelRef) : Prop := w.phase r = .starting ∨ ∃ id, w.phase r = .running id

theorem run_turnChannel_of_not (h : ¬ w.IsActive r) : after (turnChannel l e s r) w = w := by
  cases hp : w.phase r with
  | idle => simp [turnChannel, hp]
  | starting => exact absurd (Or.inl hp) h
  | running id => exact absurd (Or.inr ⟨id, hp⟩) h
  | ended task => simp [turnChannel, hp]

theorem run_turnChannel (h : w.IsActive r) (hw : w.running = true) :
    after (turnChannel l e s r) w =
      if answer (e.shouldEnd r) w = true then after (stopChannel l e s r).run (after (e.shouldEnd r) w)
      else after (e.pulse r) (after (e.shouldEnd r) w) := by
  rcases h with h | ⟨id, h⟩
  · simp [turnChannel, hw, h]
  · simp [turnChannel, hw, h]

end World

namespace Ground

variable {α η : Type} (g : Ground α η)

/-- Whoever is called stays within a relation. An effect that is called puts that on record before it does anything
    else; a scheduler hands out ids, and may run what it is given while it is given it. -/
structure Company (R : World α η → World α η → Prop) (l : Listeners α η) (e : Effects α η) (s : Scheduling α η) :
    Prop where
  shouldEnd : ∀ r (w : World α η), r < w.channels.size → R w (after (e.shouldEnd r) w)
  pulse : ∀ r (w : World α η), r < w.channels.size → ∃ u, g.Recorded (r, .pulsed) w u ∧ R u (after (e.pulse r) w)
  onStart : ∀ r (w : World α η), r < w.channels.size → ∃ u, g.Recorded (r, .started) w u ∧ R u (after (e.onStart r) w)
  onEnd : ∀ r (w : World α η), r < w.channels.size → ∃ u, g.Recorded (r, .finished) w u ∧ R u (after (e.onEnd r) w)
  castStart : ∀ id caster skill, Within R (l.castStart id caster skill)
  castEnd : ∀ id caster skill, Within R (l.castEnd id caster skill)
  schedule : ∀ r delay period (w : World α η), r < w.channels.size →
    R w (after (s.schedule (.channel r) delay period) w) ∧
      g.handed (after (s.schedule (.channel r) delay period) w) (answer (s.schedule (.channel r) delay period) w)
  cancel : ∀ id w, g.handed w id → g.Withdraws id w (after (s.cancel id) w)

/-- A relation that allows whatever leaves effects alone, and every call of the engine by a company that stays
    within it. -/
structure Closed (R : World α η → World α η → Prop) : Prop extends Lasting R where
  other : ∀ {w v}, g.other w v → R w v
  start : ∀ {l e s}, g.Company R l e s → ∀ {r} {w : World α η}, r < w.channels.size → ∀ delay period,
    R w (after (World.startChannel l e s r delay period).run w)
  turn : ∀ {l e s}, g.Company R l e s → ∀ {r} {w : World α η}, r < w.channels.size →
    R w (after (World.turnChannel l e s r) w)
  stop : ∀ {l e s}, g.Company R l e s → ∀ {r} {w : World α η}, r < w.channels.size →
    R w (after (World.stopChannel l e s r).run w)

/-- What can happen: the least of these relations. -/
def Happens (w v : World α η) : Prop := ∀ R, g.Closed R → R w v

variable {g} {w v u : World α η} {r : ChannelRef} {bs cs : List Beat} {l : Listeners α η} {e : Effects α η}
  {s : Scheduling α η}

theorem Company.mono {R S : World α η → World α η → Prop} (hc : g.Company R l e s) (h : ∀ w v, R w v → S w v) :
    g.Company S l e s where
  shouldEnd r w hr := h _ _ (hc.shouldEnd r w hr)
  pulse r w hr := (hc.pulse r w hr).imp fun _ hu => ⟨hu.1, h _ _ hu.2⟩
  onStart r w hr := (hc.onStart r w hr).imp fun _ hu => ⟨hu.1, h _ _ hu.2⟩
  onEnd r w hr := (hc.onEnd r w hr).imp fun _ hu => ⟨hu.1, h _ _ hu.2⟩
  castStart id caster skill w := h _ _ (hc.castStart id caster skill w)
  castEnd id caster skill w := h _ _ (hc.castEnd id caster skill w)
  schedule r delay period w hr := (hc.schedule r delay period w hr).imp_left (h _ _)
  cancel := hc.cancel

theorem happens_closed : g.Closed g.Happens where
  refl w _ hR := hR.refl w
  trans h h' R hR := hR.trans (h R hR) (h' R hR)
  other h _ hR := hR.other h
  start hc _ _ hr delay period R hR := hR.start (hc.mono fun _ _ h => h R hR) hr delay period
  turn hc _ _ hr R hR := hR.turn (hc.mono fun _ _ h => h R hR) hr
  stop hc _ _ hr R hR := hR.stop (hc.mono fun _ _ h => h R hR) hr

/-! ### Conduct -/

variable (g) in
/-- There is a trail, and every effect lives on it as it should. -/
def Conduct (w v : World α η) : Prop :=
  g.Tidy w → ∃ t, g.Trail w t v ∧ ∀ r, Stretch (w.phase r) (beatsOf r t) (v.phase r)

variable (g) in
/-- There is a trail, on which every effect but `r` lives as it should, and `r` has the beats `bs`. -/
def Leads (r : ChannelRef) (w : World α η) (bs : List Beat) (v : World α η) : Prop :=
  ∃ t, g.Trail w t v ∧ beatsOf r t = bs ∧ ∀ i, i ≠ r → Stretch (w.phase i) (beatsOf i t) (v.phase i)

namespace Leads

theorem trans (h : g.Leads r w bs v) (h' : g.Leads r v cs u) : g.Leads r w (bs ++ cs) u := by
  obtain ⟨t, ht, rfl, hothers⟩ := h
  obtain ⟨t', ht', rfl, hothers'⟩ := h'
  refine ⟨t ++ t', ht.append ht', beatsOf_append r, fun i hi => ?_⟩
  rw [beatsOf_append]
  exact (hothers i hi).trans (hothers' i hi)

theorem step (hg : g.Lawful) (hr : r < w.channels.size) {b : Beat} (h : g.Step r b w v) : g.Leads r w [b] v := by
  refine ⟨[(some (r, b), v)], Trail.single (x := some (r, b)) ⟨hr, h⟩, by simp [beatsOf, beats], fun i hi => ?_⟩
  have hnone : beatsOf i [(some (r, b), v)] = [] := by simp [beatsOf, beats, Ne.symm hi]
  rw [hnone, (h.touches hg).others i hi]
  exact .rest _

theorem note (n : Note α) (w : World α η) : g.Leads r w [] (after (World.note n) w) :=
  ⟨[(none, after (World.note n) w)], .single (x := none) (Or.inr ⟨n, rfl⟩), rfl, fun _ _ => .rest _⟩

theorem tidy (hg : g.Lawful) (h : g.Leads r w bs v) (hw : g.Tidy w) : g.Tidy v := by
  obtain ⟨t, ht, -, -⟩ := h
  exact (ht.tidy hg hw).2

theorem lt_size (hg : g.Lawful) (h : g.Leads r w bs v) (hr : r < w.channels.size) : r < v.channels.size := by
  obtain ⟨t, ht, -, -⟩ := h
  exact Nat.lt_of_lt_of_le hr (ht.size_le hg)

theorem then_step (hg : g.Lawful) (h : g.Leads r w bs v) (hr : r < w.channels.size) {b : Beat} (hs : g.Step r b v u) :
    g.Leads r w (bs ++ [b]) u :=
  h.trans (.step hg (h.lt_size hg hr) hs)

theorem casting (hg : g.Lawful) (h : g.Leads r w bs v) (hr : r < w.channels.size) :
    (v.channel r).casting = (w.channel r).casting := by
  obtain ⟨t, ht, -, -⟩ := h
  exact ht.casting hg hr

/-- When `r` lives as it should, too, every effect does. -/
theorem stretched (h : g.Leads r w bs v) (hs : Stretch (w.phase r) bs (v.phase r)) :
    ∃ t, g.Trail w t v ∧ ∀ i, Stretch (w.phase i) (beatsOf i t) (v.phase i) := by
  obtain ⟨t, ht, rfl, hothers⟩ := h
  refine ⟨t, ht, fun i => ?_⟩
  by_cases hi : i = r
  · subst hi
    exact hs
  · exact hothers i hi

end Leads

theorem Conduct.leads (h : g.Conduct w v) (hw : g.Tidy w) (r : ChannelRef) :
    ∃ bs, g.Leads r w bs v ∧ Stretch (w.phase r) bs (v.phase r) := by
  obtain ⟨t, ht, hstretch⟩ := h hw
  exact ⟨beatsOf r t, ⟨t, ht, rfl, fun i _ => hstretch i⟩, hstretch r⟩

/-- Nothing happens to an effect that has ended. -/
theorem Conduct.leads_of_ended (h : g.Conduct w v) (hw : g.Tidy w) {task : Option TaskId}
    (hr : w.phase r = .ended task) : g.Leads r w [] v ∧ v.phase r = .ended task := by
  obtain ⟨bs, hleads, hstretch⟩ := h.leads hw r
  obtain rfl := hstretch.settled task hr
  exact ⟨hleads, hstretch.eq_of_nil.trans hr⟩

variable (hg : g.Lawful)
include hg

theorem lasting_conduct : Lasting g.Conduct where
  refl w _ := ⟨[], .nil w, fun _ => .rest _⟩
  trans h h' hw := by
    obtain ⟨t, ht, hstretch⟩ := h hw
    obtain ⟨t', ht', hstretch'⟩ := h' (ht.tidy hg hw).2
    refine ⟨t ++ t', ht.append ht', fun r => ?_⟩
    rw [beatsOf_append]
    exact (hstretch r).trans (hstretch' r)

theorem other_conduct (h : g.other w v) : g.Conduct w v := fun _ => by
  refine ⟨[(none, v)], .single (x := none) (Or.inl h), fun r => ?_⟩
  rw [(hg.other h).phase r]
  exact .rest _

variable (hc : g.Company g.Conduct l e s)
include hc

/-! ### Telling the listeners -/

theorem tellCastStart_leads (hw : g.Tidy w) (hr : r < w.channels.size) :
    ∃ bs, g.Leads r w (.announced :: bs)
        (after (l.tellCastStart r (w.channel r).casting.caster.entity (w.channel r).casting.skill.id) w) ∧
      Stretch (w.phase r) bs
        ((after (l.tellCastStart r (w.channel r).casting.caster.entity (w.channel r).casting.skill.id) w).phase r) := by
  have hannounced : g.Leads r w [.announced] _ := .step hg hr (.announced w)
  have htold := Listeners.tell_within (lasting_conduct hg) (fun id => hc.castStart id
    (w.channel r).casting.caster.entity (w.channel r).casting.skill.id)
    (e := .castStart r (w.channel r).casting.caster.entity (w.channel r).casting.skill.id) w
  obtain ⟨bs, hleads, hstretch⟩ := Conduct.leads htold (hannounced.tidy hg hw) r
  exact ⟨bs, hannounced.trans hleads, hstretch⟩

theorem tellCastEnd_leads (hw : g.Tidy w) (hr : r < w.channels.size) {task : Option TaskId}
    (hphase : w.phase r = .ended task) :
    g.Leads r w [.retired]
        (after (l.tellCastEnd r (w.channel r).casting.caster.entity (w.channel r).casting.skill.id) w) ∧
      (after (l.tellCastEnd r (w.channel r).casting.caster.entity (w.channel r).casting.skill.id) w).phase r =
        .ended task := by
  have hretired : g.Leads r w [.retired] _ := .step hg hr (.retired w)
  have htold := Listeners.tell_within (lasting_conduct hg) (fun id => hc.castEnd id
    (w.channel r).casting.caster.entity (w.channel r).casting.skill.id)
    (e := .castEnd r (w.channel r).casting.caster.entity (w.channel r).casting.skill.id) w
  obtain ⟨hleads, hended⟩ := Conduct.leads_of_ended htold (hretired.tidy hg hw) hphase
  exact ⟨hretired.trans hleads, hended⟩

/-! ### An effect ends -/

/-- What follows once an effect has ended. -/
theorem ending_leads (hw : g.Tidy w) (hr : r < w.channels.size) {task : Option TaskId}
    (hphase : w.phase r = .ended task) {c : Casting α} (hcast : (w.channel r).casting = c) :
    g.Leads r w [.finished, .left, .retired] (after (World.ending l e r c task) w) ∧
      (after (World.ending l e r c task) w).phase r = .ended task := by
  obtain ⟨u, hrecorded, hconduct⟩ := hc.onEnd r w hr
  have hfinished : g.Leads r w [.finished] u := .step hg hr (.finished hrecorded)
  have hu : u.phase r = .ended task := by
    obtain ⟨host, rfl, -⟩ := hrecorded
    exact hphase
  obtain ⟨hcalled, hended⟩ := hconduct.leads_of_ended (hfinished.tidy hg hw) hu
  have hone := hfinished.trans hcalled
  simp only [World.ending, after_bind]
  generalize after (e.onEnd r) w = a at hone hended ⊢
  -- The casting of the effect is what it was before `onEnd` was called.
  obtain rfl : (a.channel r).casting = c := (hone.casting hg hr).trans hcast
  have htwo := hone.then_step hg hr (.left a)
  obtain ⟨hretired, hover⟩ :=
    tellCastEnd_leads hg hc (r := r) (w := after (World.setCasting (a.channel r).casting false) a) (htwo.tidy hg hw)
      (htwo.lt_size hg hr) hended
  exact ⟨(htwo.trans hretired).trans (.note _ _), hover⟩

theorem stop_starting (hw : g.Tidy w) (hr : r < w.channels.size) (hphase : w.phase r = .starting) :
    g.Leads r w Beat.teardown (after (World.stopChannel l e s r).run w) ∧
      (after (World.stopChannel l e s r).run w).phase r = .ended none := by
  have hended : g.Leads r w [.ended] (after (World.setPhase r (.ended none)) w) := .step hg hr (.torn hphase)
  obtain ⟨hending, hover⟩ := ending_leads hg hc (hended.tidy hg hw) (hended.lt_size hg hr)
    (World.phase_setPhase_self hr _) (World.casting_setPhase _ r)
  rw [(World.run_stopChannel_starting l e s hphase hw.running).2]
  exact ⟨hended.trans hending, hover⟩

theorem stop_running (hw : g.Tidy w) (hr : r < w.channels.size) {id : TaskId} (hphase : w.phase r = .running id) :
    g.Leads r w Beat.teardown (after (World.stopChannel l e s r).run w) ∧
      (after (World.stopChannel l e s r).run w).phase r = .ended (some id) := by
  have hkeeps : g.Keeps w (after (World.setPhase r (.ended (some id))) w) := hg.keeps rfl rfl
  have hhanded := hkeeps.handed id (hw.known r id (World.channelTask_eq_ok.mpr (Or.inl hphase)))
  have hwithdraws := hc.cancel id _ hhanded
  have hended : g.Leads r w [.ended] _ := .step hg hr (.stopped hphase hwithdraws)
  have hapart := hg.other hwithdraws.1
  have hphase' : (after (s.cancel id) (after (World.setPhase r (.ended (some id))) w)).phase r = .ended (some id) :=
    (hapart.phase r).trans (World.phase_setPhase_self hr _)
  obtain ⟨hending, hover⟩ := ending_leads hg hc (hended.tidy hg hw) (hended.lt_size hg hr) hphase'
    (hended.casting hg hr)
  rw [(World.run_stopChannel_running l e s hphase hw.running).2]
  exact ⟨hended.trans hending, hover⟩

theorem stop_conduct (hr : r < w.channels.size) : g.Conduct w (after (World.stopChannel l e s r).run w) := by
  intro hw
  cases hphase : w.phase r with
  | idle =>
    rw [(World.run_stopChannel_idle l e s hphase).2]
    exact (lasting_conduct hg).refl w hw
  | ended task =>
    rw [(World.run_stopChannel_ended l e s hphase).2]
    exact (lasting_conduct hg).refl w hw
  | starting =>
    obtain ⟨hleads, hover⟩ := stop_starting hg hc hw hr hphase
    refine hleads.stretched ?_
    rw [hphase, hover]
    exact .torn
  | running id =>
    obtain ⟨hleads, hover⟩ := stop_running hg hc hw hr hphase
    refine hleads.stretched ?_
    rw [hphase, hover]
    exact .stopped id

/-! ### An effect has a turn -/

theorem turn_conduct (hr : r < w.channels.size) : g.Conduct w (after (World.turnChannel l e s r) w) := by
  intro hw
  by_cases hactive : w.IsActive r
  · rw [World.run_turnChannel l e s hactive hw.running]
    have hasked : g.Conduct w (after (e.shouldEnd r) w) := hc.shouldEnd r w hr
    obtain ⟨bs, hleads, hstretch⟩ := hasked.leads hw r
    have hr' := hleads.lt_size hg hr
    split
    · exact (lasting_conduct hg).trans hasked (stop_conduct hg hc hr') hw
    · -- The effect may have ended when it was asked; it pulses all the same.
      obtain ⟨u, hrecorded, hconduct⟩ := hc.pulse r (after (e.shouldEnd r) w) hr'
      have hpulsed := hleads.then_step hg hr (.pulsed hrecorded)
      obtain ⟨cs, hleads', hstretch'⟩ := hconduct.leads (hpulsed.tidy hg hw) r
      have hsame : u.phase r = (after (e.shouldEnd r) w).phase r := by
        obtain ⟨host, rfl, -⟩ := hrecorded
        rfl
      rw [hsame] at hstretch'
      refine (hpulsed.trans hleads').stretched ?_
      rw [List.append_assoc]
      exact .pulse hactive hstretch hstretch'
  · rw [World.run_turnChannel_of_not l e s hactive]
    exact (lasting_conduct hg).refl w hw

/-! ### An effect is started -/

theorem onset_leads (hw : g.Tidy w) (hr : r < w.channels.size) (hphase : w.phase r = .idle) :
    ∃ bs, g.Leads r w (Beat.opening ++ bs) (after (World.onset e r (w.channel r).casting) w) ∧
      Stretch .starting bs ((after (World.onset e r (w.channel r).casting) w).phase r) := by
  have hbegun : g.Leads r w [.begun] (after (World.setPhase r .starting) w) := .step hg hr (.begun hphase)
  have hcasting := World.casting_setPhase (w := w) (r := r) .starting r
  obtain ⟨a, ha⟩ : ∃ a, after (World.setPhase r .starting) w = a := ⟨_, rfl⟩
  have hstarting : a.phase r = .starting := by
    rw [← ha]
    exact World.phase_setPhase_self hr _
  simp only [World.onset, after_bind]
  rw [ha] at hbegun hcasting ⊢
  rw [← hcasting]
  have hentered := hbegun.then_step hg hr (.entered a)
  obtain ⟨u, hrecorded, hconduct⟩ := hc.onStart r (after (World.setCasting (a.channel r).casting true) a)
    (hentered.lt_size hg hr)
  have hstarted := hentered.then_step hg hr (.started hrecorded)
  have hu : u.phase r = .starting := by
    obtain ⟨host, rfl, -⟩ := hrecorded
    exact hstarting
  obtain ⟨bs, hleads, hstretch⟩ := hconduct.leads (hstarted.tidy hg hw) r
  rw [hu] at hstretch
  exact ⟨bs, hstarted.trans hleads, hstretch⟩

theorem beginning_leads (hw : g.Tidy w) (hr : r < w.channels.size) (hphase : w.phase r = .idle) :
    ∃ bs cs, g.Leads r w (Beat.opening ++ bs ++ .announced :: cs)
        (after (World.beginning l e r (w.channel r).casting) w) ∧
      Stretch .starting bs ((after (World.onset e r (w.channel r).casting) w).phase r) ∧
      Stretch ((after (World.onset e r (w.channel r).casting) w).phase r) cs
        ((after (World.beginning l e r (w.channel r).casting) w).phase r) := by
  obtain ⟨bs, honset, hstretch⟩ := onset_leads hg hc hw hr hphase
  -- The listeners are told of the casting that the effect had before its onset.
  have hcasting := honset.casting hg hr
  have hbeginning : after (World.beginning l e r (w.channel r).casting) w =
      after (l.tellCastStart r (w.channel r).casting.caster.entity (w.channel r).casting.skill.id)
        (after (World.onset e r (w.channel r).casting) w) := rfl
  rw [hbeginning]
  generalize after (World.onset e r (w.channel r).casting) w = b at honset hstretch hcasting ⊢
  rw [← hcasting]
  obtain ⟨cs, htold, hstretch'⟩ := tellCastStart_leads hg hc (r := r) (honset.tidy hg hw) (honset.lt_size hg hr)
  exact ⟨bs, cs, honset.trans htold, hstretch, hstretch'⟩

/-- A start, with what became of the effect at its onset and what after it was announced. -/
theorem start_leads (hw : g.Tidy w) (hr : r < w.channels.size) (hphase : w.phase r = .idle) (delay period : Nat) :
    ∃ id bs cs, answer (World.startChannel l e s r delay period).run w = .ok id ∧
      World.channelTask (after (World.startChannel l e s r delay period).run w) r = .ok id ∧
      Stretch .starting bs ((after (World.onset e r (w.channel r).casting) w).phase r) ∧
      g.Leads r w (Beat.opening ++ bs ++ .announced :: cs ++ [.scheduled id])
        (after (World.startChannel l e s r delay period).run w) ∧
      Stretch .idle (Beat.opening ++ bs ++ .announced :: cs ++ [.scheduled id])
        ((after (World.startChannel l e s r delay period).run w).phase r) := by
  obtain ⟨bs, cs, hbeginning, hstretch, htold⟩ := beginning_leads hg hc hw hr hphase
  obtain ⟨v, hv⟩ : ∃ v, after (World.beginning l e r (w.channel r).casting) w = v := ⟨_, rfl⟩
  rw [hv] at hbeginning htold
  obtain ⟨hscheduled, hhanded⟩ := hc.schedule r delay (max period 1) v (hbeginning.lt_size hg hr)
  obtain ⟨u, hu⟩ : ∃ u, after (s.schedule (.channel r) delay (max period 1)) v = u := ⟨_, rfl⟩
  obtain ⟨id, hid⟩ : ∃ id, answer (s.schedule (.channel r) delay (max period 1)) v = id := ⟨_, rfl⟩
  rw [hu] at hscheduled hhanded
  rw [hid] at hhanded
  obtain ⟨ds, hleads, hstretch'⟩ := hscheduled.leads (hbeginning.tidy hg hw) r
  have hsofar := hbeginning.trans hleads
  have hsize := hsofar.lt_size hg hr
  have hbeats : Beat.opening ++ bs ++ .announced :: cs ++ ds ++ [.scheduled id] ++ [] =
      Beat.opening ++ bs ++ .announced :: (cs ++ ds) ++ [.scheduled id] := by simp
  obtain ⟨hanswer, hafter⟩ := World.run_startChannel_idle l e s delay period hphase hw.running hv hid hu
  rw [hafter]
  -- Where the effect has ended before the scheduler answered, its task is cancelled at once.
  rcases hstretch.launch (htold.trans hstretch') id with ⟨hu', hlife⟩ | ⟨hu', hlife⟩
  · rw [if_pos hu']
    have hend := (hsofar.then_step hg hr (.scheduled hu' hhanded)).trans
      (.note (.channelStarted (w.channel r).casting.skill.id id) _)
    have hphase' : (after (World.note (.channelStarted (w.channel r).casting.skill.id id))
        (after (World.setPhase r (.running id)) u)).phase r = .running id := World.phase_setPhase_self hsize _
    rw [hbeats] at hend
    refine ⟨id, _, _, hanswer, World.channelTask_eq_ok.mpr (Or.inl hphase'), hstretch, hend, ?_⟩
    rw [hphase']
    exact hlife
  · rw [if_neg (by simp [hu'])]
    have hkeeps : g.Keeps u (after (World.setPhase r (.ended (some id))) u) := hg.keeps rfl rfl
    have hwithdraws := hc.cancel id _ (hkeeps.handed id hhanded)
    have hend := (hsofar.then_step hg hr (.late hu' hhanded hwithdraws)).trans
      (.note (.channelStarted (w.channel r).casting.skill.id id) _)
    have hphase' : (after (World.note (.channelStarted (w.channel r).casting.skill.id id))
        (after (s.cancel id) (after (World.setPhase r (.ended (some id))) u))).phase r = .ended (some id) :=
      ((hg.other hwithdraws.1).phase r).trans (World.phase_setPhase_self hsize _)
    rw [hbeats] at hend
    refine ⟨id, _, _, hanswer, World.channelTask_eq_ok.mpr (Or.inr hphase'), hstretch, hend, ?_⟩
    rw [hphase']
    exact hlife

theorem start_idle (hw : g.Tidy w) (hr : r < w.channels.size) (hphase : w.phase r = .idle) (delay period : Nat) :
    ∃ id bs, answer (World.startChannel l e s r delay period).run w = .ok id ∧
      World.channelTask (after (World.startChannel l e s r delay period).run w) r = .ok id ∧
      g.Leads r w bs (after (World.startChannel l e s r delay period).run w) ∧
      Stretch .idle bs ((after (World.startChannel l e s r delay period).run w).phase r) := by
  obtain ⟨id, bs, cs, hanswer, htask, -, hleads, hstretch⟩ := start_leads hg hc hw hr hphase delay period
  exact ⟨id, _, hanswer, htask, hleads, hstretch⟩

theorem start_conduct (hr : r < w.channels.size) (delay period : Nat) :
    g.Conduct w (after (World.startChannel l e s r delay period).run w) := by
  intro hw
  by_cases hphase : w.phase r = .idle
  · obtain ⟨id, bs, -, -, hleads, hstretch⟩ := start_idle hg hc hw hr hphase delay period
    rw [← hphase] at hstretch
    exact hleads.stretched hstretch
  · obtain ⟨fault, -, -, hafter⟩ := World.run_startChannel_begun l e s delay period hphase hw.running
    rw [hafter]
    exact (lasting_conduct hg).refl w hw

omit hc in
theorem conduct_closed : g.Closed g.Conduct where
  toLasting := lasting_conduct hg
  other := other_conduct hg
  start hc _ _ hr := start_conduct hg hc hr
  turn hc _ _ hr := turn_conduct hg hc hr
  stop hc _ _ hr := stop_conduct hg hc hr

end Ground
end Fray
