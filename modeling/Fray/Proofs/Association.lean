/-! Lists of pairs that are read by key, where entries are left out by their keys, and lists that grow at the end. -/

namespace Fray

variable {κ β : Type} [DecidableEq κ]

theorem lookup_filter_fst (p : κ → Bool) (k : κ) (l : List (κ × β)) :
    (l.filter fun e => p e.1).lookup k = if p k then l.lookup k else none := by
  induction l with
  | nil => simp
  | cons e l ih =>
    obtain ⟨j, b⟩ := e
    by_cases hj : k = j
    · subst hj
      cases hp : p k
      · simp [hp, ih]
      · simp [hp]
    · have hne : (k == j) = false := beq_false_of_ne hj
      cases hp : p j <;> simp [hp, List.lookup_cons, hne, ih]

theorem lookup_filter_ne (j k : κ) (l : List (κ × β)) :
    (l.filter fun e => e.1 ≠ j).lookup k = if k = j then none else l.lookup k := by
  rw [lookup_filter_fst (fun x => decide (x ≠ j))]
  by_cases hk : k = j <;> simp [hk]

theorem mem_of_lookup {l : List (κ × β)} {k : κ} {b : β} (h : l.lookup k = some b) : (k, b) ∈ l := by
  obtain ⟨pre, post, rfl, -⟩ := List.lookup_eq_some_iff.mp h
  exact List.mem_append_right pre List.mem_cons_self

/-- Where no key stands twice, at most one entry stands under a key: the one that is found. -/
theorem filter_fst_eq {l : List (κ × β)} (hl : (l.map Prod.fst).Nodup) (k : κ) :
    (l.filter fun e => e.1 = k) = (l.lookup k).toList.map fun b => (k, b) := by
  induction l with
  | nil => rfl
  | cons e l ih =>
    obtain ⟨j, b⟩ := e
    obtain ⟨hj, hrest⟩ := List.nodup_cons.mp hl
    by_cases hk : k = j
    · subst hk
      have hnone : l.lookup k = none := by
        refine List.lookup_eq_none_iff.mpr fun e he => ?_
        have hne : k ≠ e.1 := fun heq => hj (List.mem_map.mpr ⟨e, he, heq.symm⟩)
        simpa using hne
      rw [List.filter_cons_of_pos (by simp), ih hrest, hnone]
      simp
    · have hne : (k == j) = false := beq_false_of_ne hk
      simp [List.lookup_cons, hne, Ne.symm hk, ih hrest]

theorem concat_eq_append_cons {β : Type} {l pre post : List β} {x y : β} :
    l ++ [x] = pre ++ y :: post ↔ l = pre ∧ x = y ∧ post = [] ∨ ∃ mid, post = mid ++ [x] ∧ l = pre ++ y :: mid := by
  constructor
  · intro h
    rcases List.eq_nil_or_concat post with rfl | ⟨mid, z, rfl⟩
    · obtain ⟨rfl, hx⟩ := List.append_inj' h rfl
      exact Or.inl ⟨rfl, by simpa using hx, rfl⟩
    · rw [List.concat_eq_append, ← List.cons_append, ← List.append_assoc] at h
      obtain ⟨rfl, hx⟩ := List.append_inj' h rfl
      obtain rfl : x = z := by simpa using hx
      exact Or.inr ⟨mid, List.concat_eq_append, rfl⟩
  · rintro (⟨rfl, rfl, rfl⟩ | ⟨mid, rfl, rfl⟩)
    · rfl
    · simp

end Fray
