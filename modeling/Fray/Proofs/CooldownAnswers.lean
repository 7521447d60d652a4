import Fray.Proofs.Cooldown

/-! Cooldowns as what they answer. All that can ever be learnt of a cooldown is how long it still goes, and what is
    over may be forgotten without anyone noticing. -/

namespace Fray

namespace Cooldowns

/-- What can be done with cooldowns, and asked of them. -/
inductive Query where
  | put (skill : SkillId) (now duration : Nat)
  | test (skill : SkillId) (now : Nat)
  | remaining (skill : SkillId) (now : Nat)
  | clear

def Query.now? : Query → Option Nat
  | put _ _ _ | clear => none
  | test _ now | remaining _ now => some now

def obey (q : Query) (c : Cooldowns) : Option (Bool ⊕ Nat) × Cooldowns :=
  match q with
  | .put skill now duration => (none, c.put skill now duration)
  | .test skill now => (some (.inl (c.test skill now).1), (c.test skill now).2)
  | .remaining skill now => (some (.inr (c.remaining skill now)), c)
  | .clear => (none, c.clear)

/-- The answers to a sequence of queries. -/
def answers : List Query → Cooldowns → List (Option (Bool ⊕ Nat))
  | [], _ => []
  | q :: qs, c => (obey q c).1 :: answers qs (obey q c).2

/-- From tick `n` on, nobody can tell one from the other. -/
def Alike (n : Nat) (c d : Cooldowns) : Prop :=
  ∀ qs : List Query, (∀ q ∈ qs, ∀ now, q.now? = some now → n ≤ now) → answers qs c = answers qs d

variable (c : Cooldowns) (j k : SkillId) (n now : Nat)

theorem test_fst : (c.test k now).1 = decide (c.remaining k now = 0) := by
  unfold test remaining
  cases c.expiry? k with
  | none => simp
  | some e =>
    by_cases hlt : now < e
    · have hne : e - now ≠ 0 := by omega
      simp [hlt, hne]
    · have hzero : e - now = 0 := by omega
      simp [hlt, hzero]

theorem remaining_later {now : Nat} (h : n ≤ now) : c.remaining k now = c.remaining k n - (now - n) := by
  unfold remaining
  omega

theorem remaining_test :
    (c.test k now).2.remaining j n = if j = k ∧ c.remaining k now = 0 then 0 else c.remaining j n := by
  rcases c.test_cases k now with h | ⟨-, hnone, hcome⟩
  · have hready : ¬c.remaining k now = 0 := by simpa [h] using c.test_fst k now
    rw [h, if_neg fun h => hready h.2]
  · have hready : c.remaining k now = 0 := by
      unfold remaining
      cases he : c.expiry? k with
      | none => simp
      | some e => exact Nat.sub_eq_zero_of_le (hcome e he)
    by_cases hj : j = k
    · subst hj
      rw [if_pos ⟨rfl, hready⟩, remaining, hnone]
      exact Nat.zero_sub n
    · rw [if_neg fun h => hj h.1, remaining, c.expiry?_test_of_ne hj, remaining]

theorem remaining_put (duration : Nat) :
    (c.put k now duration).remaining j n =
      if j = k then (if duration = 0 then 0 else Tick.later now duration - n) else c.remaining j n := by
  by_cases hj : j = k
  · subst hj
    rw [if_pos rfl]
    by_cases hd : duration = 0
    · have herase : (c.erase j).expiry? j = none := (c.expiry?_erase j j).trans (if_pos rfl)
      rw [if_pos hd, put, if_pos hd, remaining, herase]
      exact Nat.zero_sub n
    · rw [if_neg hd, remaining, c.expiry?_put (Nat.pos_of_ne_zero hd), Option.getD_some]
  · rw [if_neg hj, remaining, c.expiry?_put_of_ne hj, remaining]

variable {c n} {d : Cooldowns}

/-- Cooldowns that have as long to go at one tick answer alike from then on. -/
theorem alike_of_remaining (h : ∀ k, c.remaining k n = d.remaining k n) : Alike n c d := by
  intro qs
  induction qs generalizing c d with
  | nil => exact fun _ => rfl
  | cons q qs ih =>
    intro hqs
    obtain ⟨hq, hrest⟩ := List.forall_mem_cons.mp hqs
    have hlater : ∀ k now, q.now? = some now → c.remaining k now = d.remaining k now := fun k now hnow => by
      rw [c.remaining_later k n (hq now hnow), d.remaining_later k n (hq now hnow), h k]
    cases q with
    | put k now duration =>
      exact congrArg (none :: ·) (ih (fun j => by simp only [obey, remaining_put, h j]) hrest)
    | test k now =>
      have hanswer : (c.test k now).1 = (d.test k now).1 := by rw [test_fst, test_fst, hlater k now rfl]
      have hsame := ih (c := (c.test k now).2) (d := (d.test k now).2)
        (fun j => by rw [remaining_test, remaining_test, hlater k now rfl, h j]) hrest
      simp only [answers, obey, hanswer, hsame]
    | remaining k now =>
      simp only [answers, obey, hlater k now rfl, ih h hrest]
    | clear => rfl

end Cooldowns

end Fray
