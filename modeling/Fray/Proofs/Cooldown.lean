import Mathlib.Logic.Relation
import Fray.Engine.World
import Fray.Proofs.Association
import Fray.Proofs.Listening

/-! The cooldown of one skill of one caster, watched from outside. The cooldown is tested when a cast is attempted
    and begins when its effect does; between the two the cast may wait, and others may pass the same test. So two
    effects are a cooldown apart whenever a cast passed the test between them, and only then need they be, unless
    the cooldown would end past the last tick. -/

namespace Fray

namespace Cooldowns

variable {j k : SkillId} (c : Cooldowns)

theorem expiry?_erase (j k : SkillId) : (c.erase j).expiry? k = if k = j then none else c.expiry? k :=
  lookup_filter_ne j k c.expiries

theorem expiry?_put {duration : Nat} (hd : 0 < duration) (k : SkillId) (now : Nat) :
    (c.put k now duration).expiry? k = some (Tick.later now duration) := by
  simp [put, expiry?, Nat.ne_of_gt hd]

theorem expiry?_put_of_ne (h : k ≠ j) (now duration : Nat) : (c.put j now duration).expiry? k = c.expiry? k := by
  have herase : (c.erase j).expiries.lookup k = c.expiries.lookup k := (c.expiry?_erase j k).trans (if_neg h)
  have hne : (k == j) = false := beq_false_of_ne h
  unfold put
  split
  · exact herase
  · simp [expiry?, List.lookup_cons, hne, herase]

theorem expiry?_test_of_ne (h : k ≠ j) (now : Nat) : (c.test j now).2.expiry? k = c.expiry? k := by
  unfold test
  split
  · split
    · rfl
    · simp [expiry?_erase, h]
  · rfl

/-- A skill that is not off cooldown stays as it is; one that is has no expiry left, and had none to come. -/
theorem test_cases (k : SkillId) (now : Nat) :
    (c.test k now = (false, c)) ∨
    ((c.test k now).1 = true ∧ (c.test k now).2.expiry? k = none ∧ ∀ e, c.expiry? k = some e → e ≤ now) := by
  unfold test
  cases he : c.expiry? k with
  | none => exact Or.inr ⟨rfl, he, by simp⟩
  | some e =>
    by_cases hlt : now < e
    · exact Or.inl (by simp [hlt])
    · refine Or.inr ⟨by simp [hlt], by simp [hlt, expiry?_erase], fun e' he' => ?_⟩
      obtain rfl : e = e' := by simpa using he'
      exact Nat.le_of_not_lt hlt

end Cooldowns

/-- An invocation of a handler: the tick of the host, and how many casts had passed their test by then. -/
structure Stamp where
  tick : Nat
  passes : Nat
  deriving DecidableEq

/-- A skill of a caster, and how long its cooldown is. -/
structure Watch (α η : Type) where
  state : StateRef
  skill : Skill α
  cooldown : Nat
  positive : 0 < cooldown
  /-- The invocations of its handler that the host has on record, oldest first. -/
  log : η → List Stamp

namespace Watch

variable {α η : Type} (x : Watch α η)

/-- A cast of the skill by the caster. -/
def owns (c : Casting α) : Bool := c.state = x.state && c.skill.id = x.skill.id

/-- The event that follows a passed test. -/
def isPass : Event α → Bool
  | .preCast c _ => x.owns c
  | .attack _ | .kill _ _ _ | .finalized _ _ | .postCast _ _ | .castStart _ _ _ | .castEnd _ _ _ => false

def passes (w : World α η) : Nat := w.history.toList.countP x.isPass

def expiry? (w : World α η) : Option Nat := (w.combatant x.state).cooldowns.expiry? x.skill.id

variable [Host η α]

def now (w : World α η) : Nat := Host.tick w.host

/-- What can happen to a skill. -/
inductive Step : World α η → World α η → Prop
  /-- Anything else; an expiry that has come may be forgotten. -/
  | aside {w v : World α η} (tick : now w ≤ now v) (log : x.log v.host = x.log w.host)
    (passes : x.passes v = x.passes w)
    (expiry : x.expiry? v = x.expiry? w ∨ x.expiry? v = none ∧ ∀ e, x.expiry? w = some e → e ≤ now w) : Step w v
  /-- A cast has passed its test. -/
  | passed {w : World α η} {e : Event α} (he : x.isPass e = true) (ready : x.expiry? w = none) :
    Step w (w.announced e)
  /-- The cooldown begins, and the handler is invoked. -/
  | began {w v : World α η} (tick : now v = now w) (log : x.log v.host = x.log w.host ++ [⟨now w, x.passes w⟩])
    (passes : x.passes v = x.passes w) (expiry : x.expiry? v = some (Tick.later (now w) x.cooldown)) : Step w v

/-- What happens to a skill, one thing after the other. -/
def Course : World α η → World α η → Prop := Relation.ReflTransGen x.Step

/-- Two invocations are a cooldown apart if a cast passed its test between them. -/
def Separated (stamps : List Stamp) : Prop :=
  stamps.Pairwise fun p q => p.passes < q.passes → p.tick + x.cooldown ≤ q.tick

/-- No cooldown of these invocations ends past the last tick. -/
def InBounds (stamps : List Stamp) : Prop := ∀ p ∈ stamps, p.tick + x.cooldown < Tick.bound

/-- What is so of a watched skill at every point. -/
structure Sound (w : World α η) : Prop where
  separated : x.Separated (x.log w.host)
  past : ∀ p ∈ x.log w.host, p.tick ≤ now w ∧ p.passes ≤ x.passes w
  cooled : ∀ p ∈ x.log w.host, p.passes < x.passes w → p.tick + x.cooldown ≤ now w
  cooling : ∀ p ∈ x.log w.host, p.tick + x.cooldown ≤ now w ∨ ∃ e, x.expiry? w = some e ∧ p.tick + x.cooldown ≤ e

variable {x} {w v : World α η}

omit [Host η α] in
theorem passes_announced {e : Event α} (he : x.isPass e = true) (w : World α η) :
    x.passes (w.announced e) = x.passes w + 1 := by
  simp [passes, World.announced, List.countP_append, he]

omit [Host η α] in
theorem passes_announced_of_not {e : Event α} (he : x.isPass e = false) (w : World α η) :
    x.passes (w.announced e) = x.passes w := by
  simp [passes, World.announced, List.countP_append, he]

theorem Sound.start (h : x.log w.host = []) : x.Sound w where
  separated := by simp [h, Separated]
  past := by simp [h]
  cooled := by simp [h]
  cooling := by simp [h]

/-- What is on record stays on record, and what is added is of later. -/
theorem Step.log (hs : x.Step w v) : now w ≤ now v ∧ x.passes w ≤ x.passes v ∧
    ∃ stamps, x.log v.host = x.log w.host ++ stamps ∧ ∀ q ∈ stamps, now w ≤ q.tick ∧ x.passes w ≤ q.passes := by
  cases hs with
  | aside tick log passes expiry => exact ⟨tick, Nat.le_of_eq passes.symm, [], by simp [log], by simp⟩
  | passed he ready =>
    refine ⟨Nat.le_refl _, ?_, [], by simp [World.announced], by simp⟩
    rw [passes_announced he]
    exact Nat.le_succ _
  | began tick log passes expiry =>
    refine ⟨Nat.le_of_eq tick.symm, Nat.le_of_eq passes.symm, _, log, fun q hq => ?_⟩
    obtain rfl := List.mem_singleton.mp hq
    exact ⟨Nat.le_refl _, Nat.le_refl _⟩

theorem Course.log (hc : x.Course w v) : now w ≤ now v ∧ x.passes w ≤ x.passes v ∧
    ∃ stamps, x.log v.host = x.log w.host ++ stamps ∧ ∀ q ∈ stamps, now w ≤ q.tick ∧ x.passes w ≤ q.passes := by
  induction hc with
  | refl => exact ⟨Nat.le_refl _, Nat.le_refl _, [], by simp, by simp⟩
  | tail _ hs ih =>
    obtain ⟨htick, hpasses, stamps, hlog, hnew⟩ := ih
    obtain ⟨htick', hpasses', stamps', hlog', hnew'⟩ := hs.log
    refine ⟨Nat.le_trans htick htick', Nat.le_trans hpasses hpasses', stamps ++ stamps', ?_, fun q hq => ?_⟩
    · rw [hlog', hlog, List.append_assoc]
    · rcases List.mem_append.mp hq with hq | hq
      · exact hnew q hq
      · obtain ⟨h₁, h₂⟩ := hnew' q hq
        exact ⟨Nat.le_trans htick h₁, Nat.le_trans hpasses h₂⟩

theorem InBounds.of_course (hb : x.InBounds (x.log v.host)) (hc : x.Course w v) : x.InBounds (x.log w.host) := by
  obtain ⟨-, -, stamps, hlog, -⟩ := hc.log
  exact fun p hp => hb p (hlog ▸ List.mem_append_left _ hp)

/-- Whatever happens to a skill, its cooldown goes on. -/
theorem Sound.step (h : x.Sound w) (hs : x.Step w v) (hb : x.InBounds (x.log v.host)) : x.Sound v := by
  cases hs with
  | aside tick log passes expiry =>
    refine ⟨log ▸ h.separated, fun p hp => ?_, fun p hp hlt => ?_, fun p hp => ?_⟩
    · obtain ⟨htick, hpasses⟩ := h.past p (log ▸ hp)
      exact ⟨Nat.le_trans htick tick, passes ▸ hpasses⟩
    · exact Nat.le_trans (h.cooled p (log ▸ hp) (passes ▸ hlt)) tick
    · rcases h.cooling p (log ▸ hp) with hcool | ⟨e, he, hcool⟩
      · exact Or.inl (Nat.le_trans hcool tick)
      · rcases expiry with hsame | ⟨-, hcome⟩
        · exact Or.inr ⟨e, hsame.trans he, hcool⟩
        · exact Or.inl (Nat.le_trans hcool (Nat.le_trans (hcome e he) tick))
  | passed he ready =>
    -- No expiry is left, so whatever was invoked before lies a cooldown back.
    have hcooled : ∀ p ∈ x.log w.host, p.tick + x.cooldown ≤ now w := fun p hp => by
      rcases h.cooling p hp with hcool | ⟨_, hsome, -⟩
      · exact hcool
      · simp [ready] at hsome
    refine ⟨h.separated, fun p hp => ?_, fun p hp _ => hcooled p hp, fun p hp => Or.inl (hcooled p hp)⟩
    obtain ⟨htick, hpasses⟩ := h.past p hp
    exact ⟨htick, by rw [passes_announced he]; exact Nat.le_succ_of_le hpasses⟩
  | began tick log passes expiry =>
    have hsplit : ∀ p ∈ x.log v.host, p ∈ x.log w.host ∨ p = ⟨now w, x.passes w⟩ := fun p hp => by
      rw [log] at hp
      simpa using hp
    rw [Tick.later_of_lt (hb ⟨now w, x.passes w⟩ (by simp [log]))] at expiry
    refine ⟨?_, fun p hp => ?_, fun p hp hlt => ?_, fun p hp => ?_⟩
    · rw [log]
      refine List.pairwise_append.mpr ⟨h.separated, List.pairwise_singleton _ _, fun p hp q hq hlt => ?_⟩
      obtain rfl := List.mem_singleton.mp hq
      exact h.cooled p hp hlt
    · rw [tick, passes]
      rcases hsplit p hp with hp | rfl
      · exact h.past p hp
      · exact ⟨Nat.le_refl _, Nat.le_refl _⟩
    · rw [passes] at hlt
      rw [tick]
      rcases hsplit p hp with hp | rfl
      · exact h.cooled p hp hlt
      · exact absurd hlt (Nat.lt_irrefl _)
    · refine Or.inr ⟨_, expiry, Nat.add_le_add_right ?_ _⟩
      rcases hsplit p hp with hp | rfl
      · exact (h.past p hp).1
      · exact Nat.le_refl _

theorem Sound.course (h : x.Sound w) (hc : x.Course w v) (hb : x.InBounds (x.log v.host)) : x.Sound v := by
  induction hc with
  | refl => exact h
  | tail _ hs ih => exact (ih (hb.of_course (.single hs))).step hs hb

end Watch
end Fray
