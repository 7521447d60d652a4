import Fray.Proofs.CooldownAnswers
import Fray.Proofs.Crews
import Fray.Proofs.Spacing

/-! What becomes of a cast. It is refused, too early or cancelled, and then nothing comes of it; or it takes effect,
    once, within the call or in the tick that its delay leads to, as long as that is not past the last tick. A delayed
    cast takes effect as an immediate one does, as long as the engine is still there. -/

namespace Fray

open Act

/-! ### The test of a cast -/

theorem Roster.update_eq_self {σ : Type} [EntityState σ] {r : Roster σ} {s : StateRef} {f : σ → σ}
    (h : f (r.state s) = r.state s) : r.update s f = r := by
  have hstates : r.states.modify s f = r.states := Array.ext (by simp) fun i hi hi' => by
    rw [Array.getElem_modify]
    split
    · next hsi =>
      have hstate : r.state s = r.states[i] := by simp [state, hsi, hi']
      rw [← hstate, h]
    · rfl
  rw [update, hstates]

variable {ι α η : Type} [Amount α] [Host η α]

/-- Nothing is different but that a cooldown which is over may be forgotten. -/
structure Spared (w v : World α η) : Prop where
  rest : v = { w with roster := v.roster }
  connected : v.roster.connected = w.roster.connected
  combatants : ∀ s, v.combatant s = { w.combatant s with cooldowns := (v.combatant s).cooldowns }
  cooldowns : ∀ s, Cooldowns.Alike (Host.tick w.host) (v.combatant s).cooldowns (w.combatant s).cooldowns

/-- The skill of a cast is on cooldown at the tick of the host. -/
def World.IsCooling (c : Casting α) (w : World α η) : Prop :=
  0 < (w.combatant c.state).cooldowns.remaining c.skill.id (Host.tick w.host)

/-- The world once the cooldown of a cast was tested. -/
def World.tested (c : Casting α) (w : World α η) : World α η := after (World.testCooldown c) w

omit [Amount α] in
theorem answer_testCooldown (c : Casting α) (w : World α η) :
    answer (World.testCooldown c) w = true ↔ ¬w.IsCooling c := by
  have htest : answer (World.testCooldown c) w =
      ((w.combatant c.state).cooldowns.test c.skill.id (Host.tick w.host)).1 := rfl
  rw [htest, Cooldowns.test_fst, decide_eq_true_eq, World.IsCooling, Nat.pos_iff_ne_zero, not_not]

omit [Amount α] in
theorem spared_tested (c : Casting α) (w : World α η) : Spared w (w.tested c) := by
  have hcombatant : ∀ s, (w.tested c).combatant s = w.combatant s ∨ s = c.state ∧
      (w.tested c).combatant s = { w.combatant s with
        cooldowns := ((w.combatant s).cooldowns.test c.skill.id (Host.tick w.host)).2 } := fun s => by
    have hstate := w.roster.state_update c.state s fun f => { f with
      cooldowns := ((w.combatant c.state).cooldowns.test c.skill.id (Host.tick w.host)).2 }
    by_cases hs : s = c.state ∧ c.state < w.roster.states.size
    · rw [if_pos hs] at hstate
      obtain ⟨rfl, -⟩ := hs
      exact Or.inr ⟨rfl, hstate⟩
    · rw [if_neg hs] at hstate
      exact Or.inl hstate
  refine ⟨rfl, rfl, fun s => ?_, fun s => Cooldowns.alike_of_remaining fun k => ?_⟩
  · rcases hcombatant s with h | ⟨-, h⟩ <;> rw [h]
  · rcases hcombatant s with h | ⟨-, h⟩
    · rw [h]
    · rw [h, Cooldowns.remaining_test]
      split
      · next hk => rw [hk.1, hk.2]
      · rfl

omit [Amount α] in
/-- The test of a skill on cooldown leaves no trace. -/
theorem tested_of_isCooling {c : Casting α} {w : World α η} (h : w.IsCooling c) : w.tested c = w := by
  have htest : (w.combatant c.state).cooldowns.test c.skill.id (Host.tick w.host) =
      (false, (w.combatant c.state).cooldowns) := by
    rcases (w.combatant c.state).cooldowns.test_cases c.skill.id (Host.tick w.host) with h' | ⟨htrue, -⟩
    · exact h'
    · rw [Cooldowns.test_fst, decide_eq_true_eq] at htrue
      exact absurd h (by rw [World.IsCooling, htrue]; exact Nat.lt_irrefl 0)
  have hroster : (w.tested c).roster = w.roster := by
    show (w.roster.update c.state fun f => { f with
      cooldowns := ((w.combatant c.state).cooldowns.test c.skill.id (Host.tick w.host)).2 }) = w.roster
    rw [htest]
    exact Roster.update_eq_self rfl
  rw [(spared_tested c w).rest, hroster]

/-- The cooldown of a cast begins, as long as it resolves to now, and nothing else is different. -/
structure Begins (c : Casting α) (w v : World α η) : Prop where
  rest : v = { w with roster := v.roster }
  connected : v.roster.connected = w.roster.connected
  others : ∀ s, s ≠ c.state → v.combatant s = w.combatant s
  own : c.state < w.roster.states.size → v.combatant c.state = { w.combatant c.state with
    cooldowns := (w.combatant c.state).cooldowns.put c.skill.id (Host.tick w.host)
      (ticksOfSeconds (w.parameter c "cooldown")) }
  cooling : c.state < w.roster.states.size →
    Host.tick w.host + ticksOfSeconds (w.parameter c "cooldown") < Tick.bound →
    ∀ now, (v.combatant c.state).cooldowns.remaining c.skill.id now =
      if ticksOfSeconds (w.parameter c "cooldown") = 0 then 0
      else Host.tick w.host + ticksOfSeconds (w.parameter c "cooldown") - now

theorem begins_begun (c : Casting α) (w : World α η) : Begins c w (Watch.begun c w) := by
  have hown := World.combatant_updateCombatant (w := w) (s := c.state) (f := fun f => { f with
    cooldowns := f.cooldowns.put c.skill.id (Host.tick w.host) (ticksOfSeconds (w.parameter c "cooldown")) })
  refine ⟨rfl, rfl, fun s hs => ?_, fun hlt => hown hlt, fun hlt hb now => ?_⟩
  · exact (w.roster.state_update c.state s _).trans (if_neg fun h => hs h.1)
  · have hcombatant : (Watch.begun c w).combatant c.state = _ := hown hlt
    rw [hcombatant, Cooldowns.remaining_put, if_pos rfl, Tick.later_of_lt hb]

/-! ### How a cast ends -/

namespace Crew

variable (k : Crew α η) (c : Casting α)

/-- An attempt to cast. -/
def cast : Act α η (Except (Fault α) CastOutcome) := (World.cast k.listeners k.repertoire .ticked c).run

def reply (w : World α η) : Reply := k.repertoire.reply c.skill.handler.ref w c

/-- The effect of a cast, with what it answers and the world that it leaves. First the cooldown begins, as long as it
    resolves to then; then the handler acts; and if it did not fail, the listeners are told. -/
inductive Effect (r : Reply) (w : World α η) : Except (Fault α) Unit → World α η → Prop
  | done {v : World α η}
    (acts : (k.repertoire.perform c.skill.handler.ref c r).run.run (Watch.begun c w) = (.ok (), v)) :
    Effect r w (.ok ()) (after (k.listeners.tellPostCast c r) v)
  | failed {v : World α η} {fault : Fault α}
    (acts : (k.repertoire.perform c.skill.handler.ref c r).run.run (Watch.begun c w) = (.error fault, v)) :
    Effect r w (.error fault) v

/-- The world once the listeners were asked whether a cast is cancelled. -/
def asked (r : Reply) (w : World α η) : World α η := after (k.listeners.askPreCast c r) (w.tested c)

/-- The listeners leave the cast cancelled. -/
def Cancels (r : Reply) (w : World α η) : Prop := answer (k.listeners.askPreCast c r) (w.tested c) = true

/-- The delay of the cast, once the listeners were asked. -/
def delay (r : Reply) (w : World α η) : Nat := ticksOfSeconds ((k.asked c r w).parameter c "delay")

/-- What a cast answers, and the world that it leaves. -/
inductive Verdict (w : World α η) : Except (Fault α) CastOutcome → World α η → Prop
  | refused (reply : k.reply c w = .refused) : Verdict w (.ok .refused) w
  | onCooldown {target : Option EntityId} (reply : k.reply c w = .accepted target) (cooling : w.IsCooling c) :
    Verdict w (.ok .onCooldown) w
  | cancelled {target : Option EntityId} (reply : k.reply c w = .accepted target) (ready : ¬w.IsCooling c)
    (cancels : k.Cancels c (.accepted target) w) : Verdict w (.ok .cancelled) (k.asked c (.accepted target) w)
  | immediate {target : Option EntityId} {result : Except (Fault α) Unit} {v : World α η}
    (reply : k.reply c w = .accepted target) (ready : ¬w.IsCooling c) (passes : ¬k.Cancels c (.accepted target) w)
    (delay : k.delay c (.accepted target) w = 0)
    (effect : k.Effect c (.accepted target) (k.asked c (.accepted target) w) result v) :
    Verdict w (result.map fun _ => .cast) v
  | delayed {target : Option EntityId} {u : World α η} (reply : k.reply c w = .accepted target)
    (ready : ¬w.IsCooling c) (passes : ¬k.Cancels c (.accepted target) w) (delay : 0 < k.delay c (.accepted target) w)
    (asked : k.asked c (.accepted target) w = u) :
    Verdict w (.ok (.delayed ⟨u.timetable.nextId⟩))
      { u with
        timetable := (u.timetable.schedule (.delayedCast c (.accepted target)) (k.delay c (.accepted target) w) 0).2
        journal := u.journal.push (.castDelayed c.skill.id ⟨u.timetable.nextId⟩ (k.delay c (.accepted target) w)) }

variable {k c}

omit [Amount α] [Host η α] in
theorem run_bind_of_eq {β γ : Type} {x : Act α η β} {f : β → Act α η γ} {b : β} {w v : World α η}
    (h : x.run w = (b, v)) : (x >>= f).run w = (f b).run v := by
  show (f (x.run w).1).run (x.run w).2 = _
  rw [h]

theorem castInstantly_effect (r : Reply) (w : World α η) :
    k.Effect c r w (answer (World.castInstantly k.listeners k.repertoire c r).run w)
      (after (World.castInstantly k.listeners k.repertoire c r).run w) := by
  have hrun : (World.castInstantly k.listeners k.repertoire c r).run.run w =
      (k.repertoire.perform c.skill.handler.ref c r >>= fun _ => Try.ofAct (k.listeners.tellPostCast c r)).run.run
        (Watch.begun c w) := rfl
  unfold answer after
  rw [hrun, Try.run_bind]
  cases hacts : (k.repertoire.perform c.skill.handler.ref c r).run.run (Watch.begun c w) with
  | mk result v =>
    rw [run_bind_of_eq hacts]
    cases result with
    | ok _ => exact .done hacts
    | error fault => exact .failed hacts

/-- A cast that nothing stands against goes on, from where the listeners left the world. -/
theorem cast_eq_takeEffect {w : World α η} {target : Option EntityId} (hr : k.reply c w = .accepted target)
    (hready : ¬w.IsCooling c) (hpasses : ¬k.Cancels c (.accepted target) w) :
    answer (k.cast c) w = answer (Watch.takeEffect k.listeners k.repertoire c (.accepted target)).run
        (k.asked c (.accepted target) w) ∧
      after (k.cast c) w = after (Watch.takeEffect k.listeners k.repertoire c (.accepted target)).run
        (k.asked c (.accepted target) w) := by
  have hr : k.repertoire.reply c.skill.handler.ref w c = .accepted target := hr
  have ht : answer (World.testCooldown c) w = true := (answer_testCooldown c w).mpr hready
  have ha : answer (k.listeners.askPreCast c (.accepted target)) (after (World.testCooldown c) w) = false := by
    simpa [Cancels, World.tested] using hpasses
  constructor
  · simp [cast, World.cast, hr, ht, ha, asked, World.tested, Watch.takeEffect]
  · simp [cast, World.cast, hr, ht, ha, asked, World.tested, Watch.takeEffect]

theorem takeEffect_immediate {r : Reply} {w : World α η} (hdelay : ticksOfSeconds (w.parameter c "delay") = 0) :
    answer (Watch.takeEffect k.listeners k.repertoire c r).run w =
        (answer (World.castInstantly k.listeners k.repertoire c r).run w).map (fun _ => .cast) ∧
      after (Watch.takeEffect k.listeners k.repertoire c r).run w =
        after (World.castInstantly k.listeners k.repertoire c r).run w := by
  simp only [Watch.takeEffect, Try.run_get_bind, answer_get_bind, after_get_bind, hdelay, if_true]
  simp only [Try.run_bind, answer_bind, after_bind]
  cases answer (World.castInstantly k.listeners k.repertoire c r).run w with
  | ok _ => exact ⟨rfl, rfl⟩
  | error fault => exact ⟨rfl, rfl⟩

theorem takeEffect_delayed {r : Reply} {w : World α η} {d : Nat} (hd : ticksOfSeconds (w.parameter c "delay") = d)
    (hdelay : d ≠ 0) :
    answer (Watch.takeEffect k.listeners k.repertoire c r).run w = .ok (.delayed ⟨w.timetable.nextId⟩) ∧
      after (Watch.takeEffect k.listeners k.repertoire c r).run w =
        { w with
          timetable := (w.timetable.schedule (.delayedCast c r) d 0).2
          journal := w.journal.push (.castDelayed c.skill.id ⟨w.timetable.nextId⟩ d) } := by
  simp only [Watch.takeEffect, Try.run_get_bind, answer_get_bind, after_get_bind, hd, hdelay, if_false]
  exact ⟨rfl, rfl⟩

theorem cast_verdict (w : World α η) : k.Verdict c w (answer (k.cast c) w) (after (k.cast c) w) := by
  cases hr : k.reply c w with
  | refused =>
    have hr' : k.repertoire.reply c.skill.handler.ref w c = .refused := hr
    have hcast : answer (k.cast c) w = .ok .refused ∧ after (k.cast c) w = w := by simp [cast, World.cast, hr']
    rw [hcast.1, hcast.2]
    exact .refused hr
  | accepted target =>
    have hr' : k.repertoire.reply c.skill.handler.ref w c = .accepted target := hr
    by_cases hcool : w.IsCooling c
    · have ht : answer (World.testCooldown c) w = false := by
        simpa using mt (answer_testCooldown c w).mp (not_not.mpr hcool)
      have hcast : answer (k.cast c) w = .ok .onCooldown ∧ after (k.cast c) w = w.tested c := by
        simp [cast, World.cast, hr', ht, World.tested]
      rw [hcast.1, hcast.2, tested_of_isCooling hcool]
      exact .onCooldown hr hcool
    · by_cases hcancels : k.Cancels c (.accepted target) w
      · have ht : answer (World.testCooldown c) w = true := (answer_testCooldown c w).mpr hcool
        have ha : answer (k.listeners.askPreCast c (.accepted target)) (after (World.testCooldown c) w) = true :=
          hcancels
        have hcast : answer (k.cast c) w = .ok .cancelled ∧
            after (k.cast c) w = k.asked c (.accepted target) w := by
          simp [cast, World.cast, hr', ht, ha, asked, World.tested]
        rw [hcast.1, hcast.2]
        exact .cancelled hr hcool hcancels
      · obtain ⟨hanswer, hafter⟩ := cast_eq_takeEffect hr hcool hcancels
        rw [hanswer, hafter]
        by_cases hdelay : k.delay c (.accepted target) w = 0
        · obtain ⟨hanswer, hafter⟩ := takeEffect_immediate (k := k) (r := .accepted target) hdelay
          rw [hanswer, hafter]
          exact .immediate hr hcool hcancels hdelay (castInstantly_effect _ _)
        · obtain ⟨hanswer, hafter⟩ := takeEffect_delayed (k := k) (r := .accepted target) rfl hdelay
          rw [hanswer, hafter]
          exact .delayed hr hcool hcancels (Nat.pos_of_ne_zero hdelay) rfl

/-- The turn of a delayed cast is its effect; a fault is noted down. Without the engine it comes to nothing. -/
inductive Turn (k : Crew α η) (c : Casting α) (r : Reply) (w : World α η) : World α η → Prop
  | done {v : World α η} (running : w.running = true) (effect : k.Effect c r w (.ok ()) v) : Turn k c r w v
  | failed {v : World α η} {fault : Fault α} (running : w.running = true) (effect : k.Effect c r w (.error fault) v) :
    Turn k c r w { v with journal := v.journal.push (.delayedCastFailed c.skill.id fault) }
  | dropped (stopped : w.running = false) : Turn k c r w w

theorem run_delayedCast (r : Reply) (w : World α η) : k.Turn c r w (after (k.run (.delayedCast c r)) w) := by
  cases hrunning : w.running with
  | false =>
    have hafter : after (k.run (.delayedCast c r)) w = w := by simp [run, World.runJob, hrunning]
    rw [hafter]
    exact .dropped hrunning
  | true =>
    have heffect := castInstantly_effect (k := k) (c := c) r w
    cases hresult : answer (World.castInstantly k.listeners k.repertoire c r).run w with
    | ok _ =>
      have hafter : after (k.run (.delayedCast c r)) w =
          after (World.castInstantly k.listeners k.repertoire c r).run w := by
        simp [run, World.runJob, hrunning, hresult]
      rw [hafter]
      exact .done hrunning (hresult ▸ heffect)
    | error fault =>
      have hafter : after (k.run (.delayedCast c r)) w = after (World.note (.delayedCastFailed c.skill.id fault))
          (after (World.castInstantly k.listeners k.repertoire c r).run w) := by
        simp [run, World.runJob, hrunning, hresult]
      rw [hafter]
      exact .failed hrunning (hresult ▸ heffect)

end Crew

/-! ### The account of a cast -/

/-- Everything that there is to say of an attempt to cast with one of the crews. -/
structure CastAccount (crew : ι → Crew α η) (i : ι) (c : Casting α) (w : World α η) : Prop where
  verdict : (crew i).Verdict c w (answer ((crew i).cast c) w) (after ((crew i).cast c) w)
  refused : answer ((crew i).cast c) w = .ok .refused ↔ (crew i).reply c w = .refused
  onCooldown : answer ((crew i).cast c) w = .ok .onCooldown ↔
    ∃ target, (crew i).reply c w = .accepted target ∧ w.IsCooling c
  cancelled : answer ((crew i).cast c) w = .ok .cancelled ↔
    ∃ target, (crew i).reply c w = .accepted target ∧ ¬w.IsCooling c ∧ (crew i).Cancels c (.accepted target) w
  /-- The test tells on no answer to come. -/
  tested : Spared w (w.tested c)
  /-- Being asked, the listeners may do what is a course; nothing else is done to the timetable before the effect. -/
  asked : ∀ r, Follows crew (w.tested c) ((crew i).asked c r w)
  /-- A delayed cast has its turn once, in the tick that its delay leads to, unless it is cancelled; whatever is done
      from then on, from within whatever it was called; as long as that tick is not past the last one. -/
  once : ∀ task, answer ((crew i).cast c) w = .ok (.delayed task) →
    ∃ target d, (crew i).reply c w = .accepted target ∧ d = (crew i).delay c (.accepted target) w ∧ 0 < d ∧
      ((after ((crew i).cast c) w).timetable.now + d < Tick.bound →
        ∀ frames, (∀ f ∈ frames, f.1 ≤ (after ((crew i).cast c) w).timetable.now ∧ ∀ id ∈ f.2, id.val < task.val) →
        ∀ ls z, Sequel crew frames (after ((crew i).cast c) w) ls z →
          Once task (.delayedCast c (.accepted target)) ((after ((crew i).cast c) w).timetable.now + d) ls ∧
          ls.filterMap Incident.opened? = List.range' ((after ((crew i).cast c) w).timetable.now + 1)
            (z.timetable.now - (after ((crew i).cast c) w).timetable.now))
  turn : ∀ j r u, (crew j).Turn c r u (after ((crew j).run (.delayedCast c r)) u)
  begins : ∀ u : World α η, Begins c u (Watch.begun c u)
  /-- Casts and ticks are courses themselves. -/
  follows : ∀ j c' u, Follows crew u (after ((crew j).cast c') u)
  ticks : ∀ j (u : World α η), ∃ ls,
    Course crew [] u (.opened (u.timetable.now + 1) :: ls ++ [.closed (u.timetable.now + 1)])
      (after (World.runTick (crew j).listeners (crew j).effects (crew j).repertoire .ticked) u)

namespace Crew

variable {k : Crew α η} {c : Casting α} {w v : World α η} {a : Except (Fault α) CastOutcome}

omit [Amount α] in
theorem map_cast_ne {result : Except (Fault α) Unit} {o : CastOutcome} (ho : o ≠ .cast) :
    (result.map fun _ => CastOutcome.cast) ≠ .ok o := by
  cases result with
  | ok _ => exact fun h => ho (Except.ok.inj h).symm
  | error fault => exact fun h => nomatch h

theorem Verdict.refused_iff (h : k.Verdict c w a v) : a = .ok .refused ↔ k.reply c w = .refused := by
  cases h with
  | refused reply => exact iff_of_true rfl reply
  | onCooldown reply cooling => exact iff_of_false (by simp) (by simp [reply])
  | cancelled reply ready cancels => exact iff_of_false (by simp) (by simp [reply])
  | immediate reply ready passes delay effect =>
    exact iff_of_false (map_cast_ne (by simp)) (by simp [reply])
  | delayed reply ready passes delay asked => exact iff_of_false (by simp) (by simp [reply])

theorem Verdict.onCooldown_iff (h : k.Verdict c w a v) :
    a = .ok .onCooldown ↔ ∃ target, k.reply c w = .accepted target ∧ w.IsCooling c := by
  cases h with
  | refused reply => exact iff_of_false (by simp) (by simp [reply])
  | onCooldown reply cooling => exact iff_of_true rfl ⟨_, reply, cooling⟩
  | cancelled reply ready cancels => exact iff_of_false (by simp) fun ⟨_, _, cooling⟩ => ready cooling
  | immediate reply ready passes delay effect =>
    exact iff_of_false (map_cast_ne (by simp)) fun ⟨_, _, cooling⟩ => ready cooling
  | delayed reply ready passes delay asked => exact iff_of_false (by simp) fun ⟨_, _, cooling⟩ => ready cooling

theorem Verdict.cancelled_iff (h : k.Verdict c w a v) :
    a = .ok .cancelled ↔
      ∃ target, k.reply c w = .accepted target ∧ ¬w.IsCooling c ∧ k.Cancels c (.accepted target) w := by
  have passing : ∀ {target}, k.reply c w = .accepted target → ¬k.Cancels c (.accepted target) w →
      ¬∃ target, k.reply c w = .accepted target ∧ ¬w.IsCooling c ∧ k.Cancels c (.accepted target) w := by
    rintro target hr hpasses ⟨target', hr', -, hcancels⟩
    obtain rfl : target = target' := by simpa using hr.symm.trans hr'
    exact hpasses hcancels
  cases h with
  | refused reply => exact iff_of_false (by simp) (by simp [reply])
  | onCooldown reply cooling => exact iff_of_false (by simp) fun ⟨_, _, ready, _⟩ => ready cooling
  | cancelled reply ready cancels => exact iff_of_true rfl ⟨_, reply, ready, cancels⟩
  | immediate reply ready passes delay effect =>
    exact iff_of_false (map_cast_ne (by simp)) (passing reply passes)
  | delayed reply ready passes delay asked => exact iff_of_false (by simp) (passing reply passes)

end Crew

/-- Every attempt to cast is accounted for. -/
theorem cast_accounted (crew : ι → Crew α η) (hcrew : Company crew) (i : ι) (c : Casting α) (w : World α η)
    (hw : w.timetable.Ordered) : CastAccount crew i c w := by
  have hverdict := (crew i).cast_verdict (c := c) w
  have hasked : ∀ r, Follows crew (w.tested c) ((crew i).asked c r w) := fun r => hcrew.askPreCast_follows i c r _
  refine ⟨hverdict, hverdict.refused_iff, hverdict.onCooldown_iff, hverdict.cancelled_iff, spared_tested c w, hasked,
    fun task htask => ?_, fun j r u => Crew.run_delayedCast r u, begins_begun c,
    fun j c' u => hcrew.cast_follows j c' u, hcrew.runTick_course⟩
  generalize hv : after ((crew i).cast c) w = v at hverdict ⊢
  rw [htask] at hverdict
  generalize ha : (Except.ok (CastOutcome.delayed task) : Except (Fault α) CastOutcome) = a at hverdict
  cases hverdict with
  | immediate reply ready passes delay effect => exact absurd ha.symm (Crew.map_cast_ne (by simp))
  | @delayed target u reply ready passes delay asked =>
    obtain rfl : task = ⟨u.timetable.nextId⟩ := by simpa using ha
    -- From here on the task is awaited: it was entered last, so no agenda of a tick under way has it.
    have hu : u.timetable.Ordered := asked ▸ (hasked _).ordered hw
    refine ⟨target, _, reply, rfl, delay, fun hb frames hframes ls z hz => ?_⟩
    have hentered : Awaited _ _ _ _ _ ([] : List (Incident ι α η)) :=
      .entered hu (.delayedCast c (.accepted target)) delay hb
    have hawaited := hz.awaited (Nat.lt_add_of_pos_right delay)
      (fun f hf => ⟨(hframes f hf).1, fun hid => Nat.lt_irrefl _ ((hframes f hf).2 _ hid)⟩) hentered
    exact ⟨hawaited.law, hawaited.ticks⟩
  | refused _ => cases ha
  | onCooldown _ _ => cases ha
  | cancelled _ _ _ => cases ha

/-! ### A dash -/

/-- The dasher, with nobody to listen. -/
def dashCrew : Unit → Crew Rat Clock := fun _ => ⟨.silent, .idle, dasher⟩

def dashCast : Casting Rat := ⟨dash, ⟨⟨1⟩, .main⟩, 0, none, none⟩

theorem dash_company : Company dashCrew where
  preCast _ _ _ _ cancelled := lasting_follows.pure cancelled
  postCast _ _ _ _ := lasting_follows.pure ()
  castStart _ _ _ _ := lasting_follows.pure ()
  castEnd _ _ _ _ := lasting_follows.pure ()
  shouldEnd _ _ := lasting_follows.pure false
  pulse _ _ := lasting_follows.pure ()
  onStart _ _ := lasting_follows.pure ()
  onEnd _ _ := lasting_follows.pure ()
  perform _ ref c r := by
    intro w
    refine .aside ?_
    show (if dashWatch.owns c then { w with host := { w.host with
      struck := w.host.struck ++ [⟨w.host.tick, dashWatch.passes w⟩] } } else w).timetable = w.timetable
    split <;> rfl

/-- A dash is accounted for as every cast is. -/
theorem dash_accounted : Company dashCrew ∧ dashStart.timetable.Ordered ∧
    (after ((dashCrew ()).cast dashCast) dashStart).timetable.now + 10 < Tick.bound ∧
    CastAccount dashCrew () dashCast dashStart :=
  ⟨dash_company, .start, by decide +kernel, cast_accounted dashCrew dash_company () dashCast dashStart .start⟩

/-- The world when the dash has been cast. -/
def dashing : World Rat Clock := after ((dashCrew ()).cast dashCast) dashStart

/-- A dash with the longest delay that there is. -/
def slowCast : Casting Rat := { dashCast with skill := ⟨dash.handler, [("delay", 0x10000000000000000)]⟩ }

/-- A scheduler that has run one tick. -/
def slowStart : World Rat Clock := { dashStart with timetable := { now := 1 } }

def lastingCast : Casting Rat := { dashCast with skill := lastDash }

/-- A dash misses its time. It is delayed by ten ticks, and nobody cancels its task; yet once the engine is dropped
    nothing comes of it in the tenth tick, or ever, while with the engine it takes effect then. Where the tick of its
    effect would be past the last one, it takes effect in the next tick; and where its cooldown would end past the last
    tick, there is none. -/
theorem dash_missed :
    ((answer ((dashCrew ()).cast dashCast) dashStart).toOption = some (.delayed ⟨1⟩) ∧
      (dashCrew ()).delay dashCast (.accepted none) dashStart = 10 ∧
      (after (Timetable.ticks (dashCrew ()).run 9) { dashing with running := false }).timetable.isCancelled ⟨1⟩ =
        false ∧
      (after (Timetable.ticks (dashCrew ()).run 10) { dashing with running := false }).timetable.tasks.map (·.id) = [] ∧
      (after (Timetable.ticks (dashCrew ()).run 10) { dashing with running := false }).host.struck = [] ∧
      (after (Timetable.ticks (dashCrew ()).run 10) dashing).host.struck = [⟨0, 1⟩]) ∧
    ((answer ((dashCrew ()).cast slowCast) slowStart).toOption = some (.delayed ⟨1⟩) ∧
      (dashCrew ()).delay slowCast (.accepted none) slowStart = Tick.bound - 1 ∧
      (after (Timetable.ticks (dashCrew ()).run 1) (after ((dashCrew ()).cast slowCast) slowStart)).host.struck =
        [⟨0, 1⟩]) ∧
    (answer ((dashCrew ()).cast lastingCast) lateStart).toOption = some .cast ∧
      ticksOfSeconds (lateStart.parameter lastingCast "cooldown") = Tick.bound - 1 ∧
      ((after ((dashCrew ()).cast lastingCast) lateStart).combatant 0).cooldowns.remaining lastDash.id 1 = 0 := by
  refine ⟨⟨?_, ?_, ?_, ?_, ?_, ?_⟩, ⟨?_, ?_, ?_⟩, ?_, ?_, ?_⟩ <;> decide +kernel

end Fray
