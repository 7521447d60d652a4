import Fray.Engine.Cast
import Fray.Proofs.Cooldown
import Fray.Proofs.Handles

/-! Casting under watch. Everything that casts and ticks do to a skill is one of the things that can happen to it,
    as long as its cooldown resolves to one length; so its effects are spaced through every run. -/

namespace Fray

open Act

theorem World.combatant_updateCombatant {α η : Type} {w : World α η} {s : StateRef} (h : s < w.roster.states.size)
    (f : Combatant α → Combatant α) : (after (updateCombatant s f) w).combatant s = f (w.combatant s) :=
  (w.roster.state_update s s f).trans (if_pos ⟨rfl, h⟩)

namespace Watch

variable {α η : Type} [Host η α] (x : Watch α η)

/-- The skill is left alone, but for an expiry that has come. -/
structure Leaves (w v : World α η) : Prop where
  tick : now w ≤ now v
  log : x.log v.host = x.log w.host
  passes : x.passes v = x.passes w
  expiry : x.expiry? v = x.expiry? w ∨ x.expiry? v = none ∧ ∀ e, x.expiry? w = some e → e ≤ now w
  size : w.roster.states.size ≤ v.roster.states.size
  modifiers : (v.combatant x.state).skillModifiers = (w.combatant x.state).skillModifiers
  skills : v.skills = w.skills
  jobs : ∀ a ∈ v.timetable.tasks, ∃ b ∈ w.timetable.tasks, b.job = a.job

variable {x} {w v : World α η}

theorem Leaves.ofEq (hhost : v.host = w.host) (hpasses : x.passes v = x.passes w) (hroster : v.roster = w.roster)
    (hskills : v.skills = w.skills) (hjobs : ∀ a ∈ v.timetable.tasks, ∃ b ∈ w.timetable.tasks, b.job = a.job) :
    x.Leaves w v where
  tick := Nat.le_of_eq (by rw [now, now, hhost])
  log := by rw [hhost]
  passes := hpasses
  expiry := Or.inl (by rw [expiry?, expiry?, World.combatant, World.combatant, hroster])
  size := Nat.le_of_eq (by rw [hroster])
  modifiers := by rw [World.combatant, World.combatant, hroster]
  skills := hskills
  jobs := hjobs

theorem leaves_announced {e : Event α} (he : x.isPass e = false) (w : World α η) : x.Leaves w (w.announced e) :=
  .ofEq rfl (passes_announced_of_not he w) rfl rfl fun a ha => ⟨a, ha, rfl⟩

theorem leaves_note (n : Note α) (w : World α η) : x.Leaves w (after (World.note n) w) :=
  .ofEq rfl rfl rfl rfl fun a ha => ⟨a, ha, rfl⟩

theorem leaves_setPhase (r : ChannelRef) (p : Phase) (w : World α η) : x.Leaves w (after (World.setPhase r p) w) :=
  .ofEq rfl rfl rfl rfl fun a ha => ⟨a, ha, rfl⟩

/-- What changes of a combatant neither the modifiers nor the expiry of the skill leaves it alone, and so does what
    forgets an expiry that has come. -/
theorem leaves_updateCombatant {s : StateRef} {f : Combatant α → Combatant α} {w : World α η}
    (hf : s = x.state → (f (w.combatant s)).skillModifiers = (w.combatant s).skillModifiers ∧
      ((f (w.combatant s)).cooldowns.expiry? x.skill.id = (w.combatant s).cooldowns.expiry? x.skill.id ∨
        (f (w.combatant s)).cooldowns.expiry? x.skill.id = none ∧
          ∀ e, (w.combatant s).cooldowns.expiry? x.skill.id = some e → e ≤ now w)) :
    x.Leaves w (after (World.updateCombatant s f) w) := by
  have hcombatant : (after (World.updateCombatant s f) w).combatant x.state = w.combatant x.state ∨
      s = x.state ∧ (after (World.updateCombatant s f) w).combatant x.state = f (w.combatant x.state) := by
    simp only [World.updateCombatant, World.combatant, after_modify, Roster.state_update]
    split
    · next h => exact Or.inr ⟨h.1.symm, rfl⟩
    · exact Or.inl rfl
  refine ⟨Nat.le_refl _, rfl, rfl, ?_, by simp [World.updateCombatant, Roster.update], ?_, rfl,
    fun a ha => ⟨a, ha, rfl⟩⟩
  · rcases hcombatant with h | ⟨rfl, h⟩
    · rw [expiry?, expiry?, h]
      exact Or.inl rfl
    · rw [expiry?, expiry?, h]
      exact (hf rfl).2
  · rcases hcombatant with h | ⟨rfl, h⟩
    · rw [h]
    · rw [h, (hf rfl).1]

theorem leaves_setCasting (c : Casting α) (on : Bool) (w : World α η) : x.Leaves w (after (World.setCasting c on) w) :=
  leaves_updateCombatant fun _ => ⟨rfl, Or.inl rfl⟩

theorem leaves_testCooldown (c : Casting α) (w : World α η) : x.Leaves w (after (World.testCooldown c) w) := by
  refine leaves_updateCombatant (w := w) ?_
  intro hs
  refine ⟨rfl, ?_⟩
  by_cases hid : c.skill.id = x.skill.id
  · rw [hid]
    rcases (w.combatant c.state).cooldowns.test_cases x.skill.id (now w) with h | ⟨-, hnone, hcome⟩
    · left
      show ((w.combatant c.state).cooldowns.test x.skill.id (now w)).2.expiry? x.skill.id = _
      rw [h]
    · exact Or.inr ⟨hnone, hcome⟩
  · exact Or.inl (Cooldowns.expiry?_test_of_ne _ (Ne.symm hid) _)

theorem leaves_cancel (id : TaskId) (w : World α η) : x.Leaves w (after (Scheduling.ticked.cancel id) w) :=
  .ofEq rfl rfl rfl rfl fun a ha => ⟨a, (List.mem_filter.mp ha).1, rfl⟩

theorem leaves_take {id : TaskId} {j : Job α} {t : Timetable (Job α)} (h : w.timetable.take id = some (j, t)) :
    x.Leaves w { w with timetable := t } := by
  refine .ofEq rfl rfl rfl rfl fun a ha => ?_
  obtain ⟨b, -, hb⟩ := Option.map_eq_some_iff.mp h
  obtain ⟨-, rfl⟩ := Prod.mk.inj hb
  by_cases hp : b.period = 0
  · simp only [hp, if_true] at ha
    exact ⟨a, (List.mem_filter.mp ha).1, rfl⟩
  · simp only [hp, if_false] at ha
    obtain ⟨b', hb', rfl⟩ := List.mem_map.mp ha
    refine ⟨b', hb', ?_⟩
    split <;> rfl

/-! ### Conduct -/

variable [Amount α]

variable (x) in
/-- The cooldown resolves to its length, and nothing else goes under the name of the skill. -/
structure Steady (w : World α η) : Prop where
  state : x.state < w.roster.states.size
  cooldown : ticksOfSeconds ((w.combatant x.state).skillModifiers.parameterValue x.skill.id
    (x.skill.parameter "cooldown") "cooldown") = x.cooldown
  registered : ∀ name skill, w.skills.get? name = some skill → skill.id = x.skill.id → skill = x.skill
  waiting : ∀ a ∈ w.timetable.tasks, ∀ c r, a.job = .delayedCast c r → x.owns c = true → c.skill = x.skill

omit [Host η α] in
theorem Steady.announced (h : x.Steady w) (e : Event α) : x.Steady (w.announced e) :=
  ⟨h.state, h.cooldown, h.registered, h.waiting⟩

variable (x) in
/-- What is done to a steady skill is some of what can happen to it, and leaves it steady. -/
def Conduct (w v : World α η) : Prop := x.Steady w → x.Steady v ∧ x.Course w v

theorem lasting_conduct : Lasting x.Conduct where
  refl _ h := ⟨h, .refl⟩
  trans h₁ h₂ h := by
    obtain ⟨hv, hwv⟩ := h₁ h
    obtain ⟨hu, hvu⟩ := h₂ hv
    exact ⟨hu, hwv.trans hvu⟩

theorem Leaves.steady (h : x.Leaves w v) (hw : x.Steady w) : x.Steady v where
  state := Nat.lt_of_lt_of_le hw.state h.size
  cooldown := by rw [h.modifiers]; exact hw.cooldown
  registered := by rw [h.skills]; exact hw.registered
  waiting a ha c r hj hc := by
    obtain ⟨b, hb, hjob⟩ := h.jobs a ha
    exact hw.waiting b hb c r (hjob.trans hj) hc

theorem Leaves.conduct (h : x.Leaves w v) : x.Conduct w v := fun hw =>
  ⟨h.steady hw, .single (.aside h.tick h.log h.passes h.expiry)⟩

/-- What is done when the engine calls out: whatever else it does, a handler invoked for the skill puts that on
    record first. -/
structure Client (x : Watch α η) (l : Listeners α η) (e : Effects α η) (h : Repertoire α η) : Prop where
  preCast : ∀ id c r cancelled, Act.Within x.Conduct (l.preCast id c r cancelled)
  postCast : ∀ id c r, Act.Within x.Conduct (l.postCast id c r)
  castEnd : ∀ id caster skill, Act.Within x.Conduct (l.castEnd id caster skill)
  shouldEnd : ∀ r, Act.Within x.Conduct (e.shouldEnd r)
  pulse : ∀ r, Act.Within x.Conduct (e.pulse r)
  onEnd : ∀ r, Act.Within x.Conduct (e.onEnd r)
  perform : ∀ c r, x.owns c = false → Act.Within x.Conduct (h.perform c.skill.handler.ref c r).run
  record : ∀ c r, x.owns c = true → ∀ w : World α η, ∃ host, Host.tick host = now w ∧
    x.log host = x.log w.host ++ [⟨now w, x.passes w⟩] ∧
    x.Conduct { w with host } (after (h.perform c.skill.handler.ref c r).run w)

variable {l : Listeners α η} {e : Effects α η} {h : Repertoire α η}

theorem tellPostCast_conduct (hx : x.Client l e h) (c : Casting α) (r : Reply) :
    Act.Within x.Conduct (l.tellPostCast c r) := fun w =>
  lasting_conduct.trans (leaves_announced rfl w).conduct
    (Listeners.tell_within lasting_conduct (fun id => hx.postCast id c r) w)

/-- The world once the cooldown of a cast has begun. -/
def begun (c : Casting α) (w : World α η) : World α η :=
  after (World.updateCombatant c.state fun f =>
    { f with cooldowns := f.cooldowns.put c.skill.id (now w) (ticksOfSeconds (w.parameter c "cooldown")) }) w

theorem begun_conduct_of_not {c : Casting α} (ho : x.owns c = false) (w : World α η) : x.Conduct w (begun c w) := by
  refine (leaves_updateCombatant (w := w) ?_).conduct
  intro hs
  have hne : x.skill.id ≠ c.skill.id := fun hid => by simp [owns, hs, hid] at ho
  exact ⟨rfl, Or.inl (Cooldowns.expiry?_put_of_ne _ hne _ _)⟩

/-- The cooldown begins, and the handler of the skill is invoked. -/
theorem begun_conduct {c : Casting α} (ho : x.owns c = true) (hc : c.skill = x.skill) {host : η}
    (ht : Host.tick host = now w) (hl : x.log host = x.log w.host ++ [⟨now w, x.passes w⟩]) :
    x.Conduct w { begun c w with host } := by
  intro hw
  obtain ⟨hstate, hid⟩ : c.state = x.state ∧ c.skill.id = x.skill.id := by simpa [owns] using ho
  have hduration : ticksOfSeconds (w.parameter c "cooldown") = x.cooldown := by
    rw [World.parameter, hstate, hc]
    exact hw.cooldown
  have hcombatant : (begun c w).combatant x.state = { w.combatant x.state with
      cooldowns := (w.combatant x.state).cooldowns.put x.skill.id (now w) x.cooldown } := by
    rw [begun, hstate, hid, hduration]
    exact World.combatant_updateCombatant hw.state _
  constructor
  · refine ⟨?_, ?_, hw.registered, hw.waiting⟩
    · simpa [begun, World.updateCombatant, Roster.update] using hw.state
    · show ticksOfSeconds (((begun c w).combatant x.state).skillModifiers.parameterValue _ _ _) = _
      rw [hcombatant]
      exact hw.cooldown
  · refine .single (.began ht hl rfl ?_)
    show ((begun c w).combatant x.state).cooldowns.expiry? x.skill.id = _
    rw [hcombatant]
    exact Cooldowns.expiry?_put _ x.positive _ _

theorem castInstantly_conduct (hx : x.Client l e h) {c : Casting α} (hc : x.owns c = true → c.skill = x.skill)
    (r : Reply) : Act.Within x.Conduct (World.castInstantly l h c r).run := by
  intro w
  have hpost : Act.Within x.Conduct (Try.ofAct (l.tellPostCast c r)).run := tellPostCast_conduct hx c r
  have hafter : after (World.castInstantly l h c r).run w =
      after (h.perform c.skill.handler.ref c r >>= fun _ => Try.ofAct (l.tellPostCast c r)).run (begun c w) := rfl
  rw [hafter]
  cases ho : x.owns c with
  | false =>
    exact lasting_conduct.trans (begun_conduct_of_not ho w)
      (lasting_conduct.tryBind (hx.perform c r ho) (fun _ => hpost) _)
  | true =>
    -- The cooldown begins first; then the handler puts its invocation on record before it does anything else.
    obtain ⟨host, ht, hl, hperform⟩ := hx.record c r ho (begun c w)
    have hbegun : x.Conduct w (after (h.perform c.skill.handler.ref c r).run (begun c w)) :=
      lasting_conduct.trans (begun_conduct ho (hc ho) ht hl) hperform
    rw [Try.run_bind]
    simp only [after_bind]
    cases answer (h.perform c.skill.handler.ref c r).run (begun c w) with
    | error fault => exact hbegun
    | ok _ => exact lasting_conduct.trans hbegun (hpost _)

/-! ### Attempts to cast -/

theorem enter_conduct {j : Job α} (hj : ∀ c r, j = .delayedCast c r → x.owns c = true → c.skill = x.skill)
    (delay period : Nat) : Act.Within x.Conduct (Scheduling.enter (η := η) j delay period) := by
  intro w hw
  refine ⟨⟨hw.state, hw.cooldown, hw.registered, fun a ha c r hjob ho => ?_⟩,
    .single (.aside (Nat.le_refl _) rfl rfl (Or.inl rfl))⟩
  have hmem : a ∈ w.timetable.tasks ∨ a.job = j := by
    rcases List.mem_append.mp ha with ha | ha
    · exact Or.inl ha
    · obtain rfl := List.mem_singleton.mp ha
      exact Or.inr rfl
  rcases hmem with ha | rfl
  · exact hw.waiting a ha c r hjob ho
  · exact hj c r hjob ho

/-- What follows when no listener cancels a cast. -/
def takeEffect (l : Listeners α η) (h : Repertoire α η) (c : Casting α) (r : Reply) : Try α η CastOutcome := do
  let delay := ticksOfSeconds ((← get).parameter c "delay")
  if delay = 0 then
    World.castInstantly l h c r
    return .cast
  else .ofAct do
    let task ← Scheduling.ticked.schedule (.delayedCast c r) delay 0
    World.note (.castDelayed c.skill.id task delay)
    return .delayed task

/-- What follows a passed test. -/
def proceed (l : Listeners α η) (h : Repertoire α η) (c : Casting α) (r : Reply) : Try α η CastOutcome := do
  if ← Try.ofAct (l.askPreCast c r) then return .cancelled
  takeEffect l h c r

/-- An attempt is refused or too early, or its test passes and the cast proceeds. -/
theorem cast_cases (l : Listeners α η) (h : Repertoire α η) (c : Casting α) (w : World α η) :
    after (World.cast l h .ticked c).run w = w ∨
    after (World.cast l h .ticked c).run w = after (World.testCooldown c) w ∨
    answer (World.testCooldown c) w = true ∧ ∃ r,
      after (World.cast l h .ticked c).run w = after (proceed l h c r).run (after (World.testCooldown c) w) := by
  cases hr : h.reply c.skill.handler.ref w c with
  | refused => exact Or.inl (by simp [World.cast, hr])
  | accepted target =>
    cases ht : answer (World.testCooldown c) w with
    | false => exact Or.inr (Or.inl (by simp [World.cast, hr, ht]))
    | true => exact Or.inr (Or.inr ⟨rfl, .accepted target, by simp [World.cast, hr, ht, proceed, takeEffect]⟩)

theorem delayed_conduct {c : Casting α} (hc : x.owns c = true → c.skill = x.skill) (r : Reply) (delay : Nat) :
    Act.Within x.Conduct (η := η) (do
      let task ← Scheduling.ticked.schedule (.delayedCast c r) delay 0
      World.note (.castDelayed c.skill.id task delay)
      return CastOutcome.delayed task) := by
  refine lasting_conduct.bind (enter_conduct (fun c' r' hj ho => ?_) delay 0) fun task => ?_
  · obtain ⟨rfl, -⟩ := Job.delayedCast.inj hj
    exact hc ho
  · exact lasting_conduct.bind (fun w => (leaves_note _ w).conduct) fun _ => lasting_conduct.pure _

theorem takeEffect_conduct (hx : x.Client l e h) {c : Casting α} (hc : x.owns c = true → c.skill = x.skill)
    (r : Reply) : Act.Within x.Conduct (takeEffect l h c r).run := by
  intro w
  simp only [takeEffect, Try.run_get_bind, after_get_bind]
  split
  · refine lasting_conduct.tryBind (castInstantly_conduct hx hc r) (fun _ => ?_) w
    exact lasting_conduct.pure _
  · exact delayed_conduct hc r _ w

theorem proceed_conduct (hx : x.Client l e h) {c : Casting α} (hc : x.owns c = true → c.skill = x.skill) (r : Reply)
    (w : World α η) : x.Conduct (w.announced (.preCast c r)) (after (proceed l h c r).run w) := by
  have hask : x.Conduct (w.announced (.preCast c r)) (after (l.askPreCast c r) w) :=
    Listeners.ask_within lasting_conduct (fun id cancelled => hx.preCast id c r cancelled) w
  refine lasting_conduct.trans hask ?_
  simp only [proceed, Try.run_bind, Try.run_ofAct, after_bind, after_map, answer_map]
  cases answer (l.askPreCast c r) w with
  | true => exact lasting_conduct.refl _
  | false => exact takeEffect_conduct hx hc r _

theorem expiry?_testCooldown {c : Casting α} (ho : x.owns c = true) (hw : x.Steady w)
    (ht : answer (World.testCooldown c) w = true) : x.expiry? (after (World.testCooldown c) w) = none := by
  obtain ⟨hstate, hid⟩ : c.state = x.state ∧ c.skill.id = x.skill.id := by simpa [owns] using ho
  have hafter : (after (World.testCooldown c) w).combatant c.state = { w.combatant c.state with
      cooldowns := ((w.combatant c.state).cooldowns.test c.skill.id (now w)).2 } :=
    World.combatant_updateCombatant (hstate ▸ hw.state) _
  rw [expiry?, ← hstate, ← hid, hafter]
  rcases (w.combatant c.state).cooldowns.test_cases c.skill.id (now w) with h | ⟨-, hnone, -⟩
  · have hnot : answer (World.testCooldown c) w = false := congrArg Prod.fst h
    simp [ht] at hnot
  · exact hnone

variable (x) in
/-- Nothing is put on record before the test of an attempt has passed. -/
def Attempt (w v : World α η) : Prop :=
  ∃ u, x.log u.host = x.log w.host ∧ x.Course w u ∧ x.Course u v ∧ (v = u ∨ x.passes w < x.passes u)

omit [Amount α] in
theorem Attempt.course (ha : x.Attempt w v) : x.Course w v := by
  obtain ⟨u, -, hwu, huv, -⟩ := ha
  exact hwu.trans huv

omit [Amount α] in
/-- What an attempt puts on record is a cooldown later than what was on record. -/
theorem Attempt.spaced (ha : x.Attempt w v) (hw : x.Sound w) (hb : x.InBounds (x.log w.host)) :
    ∀ p ∈ x.log w.host, ∀ q ∈ (x.log v.host).drop (x.log w.host).length, p.tick + x.cooldown ≤ q.tick := by
  obtain ⟨u, hlog, hwu, huv, hpass⟩ := ha
  intro p hp q hq
  obtain ⟨-, -, stamps, hstamps, hlater⟩ := huv.log
  rw [hstamps, hlog, List.drop_left] at hq
  rcases hpass with rfl | hpass
  · have hnil : stamps = [] := by simpa using hstamps
    simp [hnil] at hq
  · -- A cast passed its test on the way to `u`, so what was on record had cooled down by then.
    have hcooled : p.tick + x.cooldown ≤ now u :=
      (hw.course hwu (hlog ▸ hb)).cooled p (hlog ▸ hp) (Nat.lt_of_le_of_lt (hw.past p hp).2 hpass)
    exact Nat.le_trans hcooled (hlater q hq).1

theorem cast_attempt (hx : x.Client l e h) {c : Casting α} (ho : x.owns c = true) (hc : c.skill = x.skill)
    (hw : x.Steady w) : x.Steady (after (World.cast l h .ticked c).run w) ∧
      x.Attempt w (after (World.cast l h .ticked c).run w) := by
  have htested := (leaves_testCooldown (x := x) c w).conduct hw
  rcases cast_cases l h c w with hafter | hafter | ⟨ht, r, hafter⟩
  · rw [hafter]
    exact ⟨hw, w, rfl, .refl, .refl, Or.inl rfl⟩
  · rw [hafter]
    exact ⟨htested.1, _, (leaves_testCooldown c w).log, htested.2, .refl, Or.inl rfl⟩
  · rw [hafter]
    have hpass : x.isPass (.preCast c r) = true := ho
    have hstep : x.Step _ _ := .passed hpass (expiry?_testCooldown ho hw ht)
    obtain ⟨hsteady, hcourse⟩ := proceed_conduct hx (fun _ => hc) r _ (htested.1.announced (.preCast c r))
    refine ⟨hsteady, (after (World.testCooldown c) w).announced (.preCast c r), (leaves_testCooldown c w).log,
      htested.2.tail hstep, hcourse, Or.inr ?_⟩
    rw [passes_announced hpass, (leaves_testCooldown c w).passes]
    exact Nat.lt_succ_self _

theorem cast_conduct (hx : x.Client l e h) {c : Casting α} (ho : x.owns c = false) :
    Act.Within x.Conduct (World.cast l h .ticked c).run := by
  intro w
  have hc : x.owns c = true → c.skill = x.skill := by simp [ho]
  rcases cast_cases l h c w with hafter | hafter | ⟨-, r, hafter⟩
  · rw [hafter]
    exact lasting_conduct.refl w
  · rw [hafter]
    exact (leaves_testCooldown c w).conduct
  · rw [hafter]
    exact lasting_conduct.trans (leaves_testCooldown c w).conduct
      (lasting_conduct.trans (leaves_announced (e := .preCast c r) ho _).conduct (proceed_conduct hx hc r _))

/-! ### Ticks -/

theorem tellCastEnd_conduct (hx : x.Client l e h) (r : ChannelRef) (caster : EntityId) (skill : SkillId) :
    Act.Within x.Conduct (l.tellCastEnd r caster skill) := fun w =>
  lasting_conduct.trans (leaves_announced rfl w).conduct
    (Listeners.tell_within lasting_conduct (fun id => hx.castEnd id caster skill) w)

theorem finish_conduct (hx : x.Client l e h) (r : ChannelRef) (c : Casting α) (task : Option TaskId) :
    Act.Within x.Conduct (World.stopChannel.finish l e .ticked r c task) := by
  have hcasting : Act.Within x.Conduct (World.setCasting (η := η) c false) := fun w =>
    (leaves_setCasting c false w).conduct
  have hend : Act.Within x.Conduct (do
      e.onEnd r
      World.setCasting c false
      l.tellCastEnd r c.caster.entity c.skill.id
      World.note (.channelEnded c.skill.id task)) := by
    refine lasting_conduct.bind (hx.onEnd r) fun _ => lasting_conduct.bind hcasting fun _ => ?_
    exact lasting_conduct.bind (tellCastEnd_conduct hx r _ _) fun _ w => (leaves_note _ w).conduct
  intro w
  simp only [World.stopChannel.finish, after_get_bind, after_ite]
  split
  · cases task with
    | none => exact hend w
    | some id => exact lasting_conduct.bind (fun w => (leaves_cancel id w).conduct) (fun _ => hend) w
  · exact hcasting w

theorem stopChannel_conduct (hx : x.Client l e h) (r : ChannelRef) :
    Act.Within x.Conduct (World.stopChannel l e .ticked r).run := by
  have hended : ∀ p c task, Act.Within x.Conduct (do
      World.setPhase r p
      World.stopChannel.finish l e .ticked r c task) := fun p c task =>
    lasting_conduct.bind (fun w => (leaves_setPhase r p w).conduct) fun _ => finish_conduct hx r c task
  intro w
  unfold World.stopChannel
  rw [Try.run_get_bind, after_get_bind]
  cases w.phase r with
  | idle => exact lasting_conduct.refl w
  | ended task => exact lasting_conduct.refl w
  | starting =>
    simp only [Try.run_ofAct, after_map]
    exact hended _ _ none w
  | running id =>
    simp only [Try.run_ofAct, after_map]
    exact hended _ _ (some id) w

theorem turnChannel_conduct (hx : x.Client l e h) (r : ChannelRef) :
    Act.Within x.Conduct (World.turnChannel l e .ticked r) := by
  have hstop : Act.Within x.Conduct (discard (World.stopChannel l e .ticked r).run) := stopChannel_conduct hx r
  have hturn : Act.Within x.Conduct (do
      if ← e.shouldEnd r then discard (World.stopChannel l e .ticked r).run
      else e.pulse r) := by
    refine lasting_conduct.bind (hx.shouldEnd r) fun b => ?_
    cases b with
    | true => exact hstop
    | false => exact hx.pulse r
  intro w
  simp only [World.turnChannel, after_get_bind]
  exact Act.Within.ite hturn (lasting_conduct.pure ()) w

theorem runJob_conduct (hx : x.Client l e h) {j : Job α}
    (hj : ∀ c r, j = .delayedCast c r → x.owns c = true → c.skill = x.skill) :
    Act.Within x.Conduct (World.runJob l e h .ticked j) := by
  cases j with
  | channel r => exact turnChannel_conduct hx r
  | delayedCast c r =>
    intro w
    simp only [World.runJob, after_get_bind]
    split
    · refine lasting_conduct.bind (castInstantly_conduct hx (hj c r rfl) r) (fun answer => ?_) w
      cases answer with
      | ok _ => exact lasting_conduct.pure ()
      | error fault => exact fun w => (leaves_note _ w).conduct
    · exact lasting_conduct.refl w

theorem turn_conduct (hx : x.Client l e h) (ran : Nat) (id : TaskId) :
    Act.Within x.Conduct (Timetable.turn (World.runJob (η := η) l e h .ticked) ran id) := by
  intro w hw
  have htimetable : HasTimetable.timetable w = w.timetable := rfl
  cases htake : w.timetable.take id with
  | none =>
    have hafter : after (Timetable.turn (World.runJob l e h .ticked) ran id) w = w := by
      simp only [Timetable.turn, after_get_bind, htimetable, htake, after_pure]
    rw [hafter]
    exact ⟨hw, .refl⟩
  | some taken =>
    obtain ⟨j, t⟩ := taken
    have hafter : after (Timetable.turn (World.runJob l e h .ticked) ran id) w =
        after (World.runJob l e h .ticked j) { w with timetable := t } := by
      simp only [Timetable.turn, after_get_bind, htimetable, htake]
      rfl
    rw [hafter]
    -- A cast that waited was entered under its own name, and the timetable still had it at its turn.
    refine lasting_conduct.trans (leaves_take htake).conduct (runJob_conduct hx (fun c r hj ho => ?_) _) hw
    obtain ⟨a, ha, hpair⟩ := Option.map_eq_some_iff.mp htake
    obtain ⟨hjob, -⟩ := Prod.mk.inj hpair
    exact hw.waiting a (List.mem_of_find?_eq_some ha) c r (hjob.trans hj) ho

theorem runTick_conduct (hx : x.Client l e h) : Act.Within x.Conduct (World.runTick l e h .ticked) := by
  intro w
  have hadvance : x.Leaves w { w with timetable := w.timetable.advance } :=
    .ofEq rfl rfl rfl rfl fun a ha => ⟨a, ha, rfl⟩
  have hafter : after (World.runTick l e h .ticked) w =
      after (w.timetable.advance.due.foldlM (Timetable.turn (World.runJob l e h .ticked)) 0)
        { w with timetable := w.timetable.advance } := rfl
  rw [hafter]
  exact lasting_conduct.trans hadvance.conduct (lasting_conduct.foldlM (fun id _ ran => turn_conduct hx ran id) 0 _)

end Watch
end Fray
