import Mathlib.Data.List.Nodup
import Fray.Combatant
import Fray.Proofs.Association

/-! What is behind a handle. The states of a roster and the stats of a combatant are kept for good and numbered as
    they come, so a handle stays good; what is changed through one handle no other sees. Clearing the stats reaches
    each that a name stands for, once. -/

namespace Fray

/-! ### Arrays read by number -/

theorem getD_modify {β : Type} (a : Array β) (i j : Nat) (f : β → β) (d : β) :
    (a.modify i f).getD j d = if j = i ∧ i < a.size then f (a.getD j d) else a.getD j d := by
  by_cases hi : i < a.size
  · by_cases hj : j = i
    · subst hj
      simp [hi, Array.getElem_modify]
    · simp [hj, Array.getElem?_modify, Ne.symm hj]
  · have hsame : a.modify i f = a :=
      Array.ext (by simp) fun k hk _ => by
        have hne : i ≠ k := fun h => hi (by simpa [h] using hk)
        simp [Array.getElem_modify, hne]
    simp [hi, hsame]

theorem getD_push_self {β : Type} (a : Array β) (j : Nat) (d : β) : (a.push d).getD j d = a.getD j d := by
  simp only [Array.getD_eq_getD_getElem?, Array.getElem?_push]
  split
  · next h => simp [h]
  · rfl

/-! ### Numbers that stand under a key -/

/-- The keys are distinct, and so are the numbers under them, which have all been given out. -/
structure Numbered {κ : Type} (l : List (κ × Nat)) (size : Nat) : Prop where
  keys : (l.map Prod.fst).Nodup
  numbers : (l.map Prod.snd).Nodup
  bound : ∀ e ∈ l, e.2 < size

namespace Numbered

variable {κ : Type} {l : List (κ × Nat)} {size : Nat}

theorem nil (size : Nat) : Numbered ([] : List (κ × Nat)) size := ⟨List.nodup_nil, List.nodup_nil, by simp⟩

theorem filter (h : Numbered l size) (p : κ × Nat → Bool) : Numbered (l.filter p) size where
  keys := h.keys.sublist (List.filter_sublist.map Prod.fst)
  numbers := h.numbers.sublist (List.filter_sublist.map Prod.snd)
  bound e he := h.bound e (List.mem_of_mem_filter he)

variable [DecidableEq κ]

theorem lookup_lt (h : Numbered l size) {k : κ} {i : Nat} (hk : l.lookup k = some i) : i < size :=
  h.bound (k, i) (mem_of_lookup hk)

/-- A number stands under one key only. -/
theorem key_unique (h : Numbered l size) {j k : κ} {i : Nat} (hj : l.lookup j = some i) (hk : l.lookup k = some i) :
    j = k :=
  congrArg Prod.fst (List.inj_on_of_nodup_map h.numbers (mem_of_lookup hj) (mem_of_lookup hk) rfl)

/-- The next number goes to a key that has none. -/
theorem add (h : Numbered l size) {k : κ} (hk : l.lookup k = none) : Numbered (l ++ [(k, size)]) (size + 1) where
  keys := by
    rw [List.map_append, List.map_singleton, ← List.concat_eq_append]
    refine List.Nodup.concat (fun hmem => ?_) h.keys
    obtain ⟨e, he, rfl⟩ := List.mem_map.mp hmem
    simpa using List.lookup_eq_none_iff.mp hk e he
  numbers := by
    rw [List.map_append, List.map_singleton, ← List.concat_eq_append]
    refine List.Nodup.concat (fun hmem => ?_) h.numbers
    obtain ⟨e, he, heq⟩ := List.mem_map.mp hmem
    exact absurd heq (Nat.ne_of_lt (h.bound e he))
  bound e he := by
    rcases List.mem_append.mp he with he | he
    · exact Nat.lt_succ_of_lt (h.bound e he)
    · rw [List.mem_singleton.mp he]
      exact Nat.lt_succ_self size

end Numbered

theorem Roster.state_update {σ : Type} [EntityState σ] (r : Roster σ) (s t : StateRef) (f : σ → σ) :
    (r.update s f).state t = if t = s ∧ s < r.states.size then f (r.state t) else r.state t :=
  getD_modify ..

/-! ### Stats -/

namespace Stats

variable {α : Type} {s : Stats α}

theorem stat_update (s : Stats α) (r t : StatRef) (f : Stat (StatModifier α) → Stat (StatModifier α)) :
    (s.update r f).stat t = if t = r ∧ r < s.all.size then f (s.stat t) else s.stat t :=
  getD_modify ..

@[simp] theorem size_update (s : Stats α) (r : StatRef) (f : Stat (StatModifier α) → Stat (StatModifier α)) :
    (s.update r f).all.size = s.all.size := Array.size_modify

/-- Each name stands for a stat of its own. -/
def Tidy (s : Stats α) : Prop := Numbered s.named s.all.size

theorem Tidy.of_same {t : Stats α} (h : s.Tidy) (hn : t.named = s.named) (hs : t.all.size = s.all.size) : t.Tidy := by
  unfold Tidy
  rw [hn, hs]
  exact h

theorem Tidy.demand (h : s.Tidy) (name : String) : (s.demand name).2.Tidy := by
  unfold Stats.demand
  split
  · exact h
  · next hnone =>
    unfold Tidy
    rw [Array.size_push]
    exact Numbered.add h hnone

theorem ref?_demand (s : Stats α) (name : String) : (s.demand name).2.ref? name = some (s.demand name).1 := by
  unfold demand
  split
  · next r hr => exact hr
  · next hnone =>
    have hnone : s.named.lookup name = none := hnone
    simp [ref?, List.lookup_append, hnone]

/-- A name that stands for a stat goes on to stand for it when others are asked for. -/
theorem ref?_demand_of_some {name : String} {r : StatRef} (hr : s.ref? name = some r) (other : String) :
    (s.demand other).2.ref? name = some r := by
  unfold demand
  split
  · exact hr
  · have hr : s.named.lookup name = some r := hr
    simp [ref?, List.lookup_append, hr]

section Fold

variable (f : Stat (StatModifier α) → Stat (StatModifier α))

theorem foldl_update_same (l : List (String × StatRef)) (s : Stats α) :
    (l.foldl (fun s e => s.update e.2 f) s).named = s.named ∧
      (l.foldl (fun s e => s.update e.2 f) s).all.size = s.all.size := by
  induction l generalizing s with
  | nil => exact ⟨rfl, rfl⟩
  | cons e l ih =>
    obtain ⟨hn, hs⟩ := ih (s.update e.2 f)
    exact ⟨hn, hs.trans (s.size_update e.2 f)⟩

/-- To change the stats of a list of handles one after the other changes each that is listed, once. -/
theorem stat_foldl_update {l : List (String × StatRef)} {s : Stats α} (hl : Numbered l s.all.size) (t : StatRef) :
    (l.foldl (fun s e => s.update e.2 f) s).stat t = if t ∈ l.map Prod.snd then f (s.stat t) else s.stat t := by
  induction l generalizing s with
  | nil => simp
  | cons e l ih =>
    obtain ⟨he, hnumbers⟩ := List.nodup_cons.mp hl.numbers
    have hsize : e.2 < s.all.size := hl.bound e List.mem_cons_self
    have hrest : Numbered l (s.update e.2 f).all.size := by
      rw [size_update]
      exact ⟨(List.nodup_cons.mp hl.keys).2, hnumbers, fun x hx => hl.bound x (List.mem_cons_of_mem e hx)⟩
    rw [List.foldl_cons, ih hrest, stat_update]
    by_cases ht : t = e.2
    · subst ht
      rw [if_neg he, if_pos ⟨rfl, hsize⟩, if_pos (by simp)]
    · simp only [List.map_cons, List.mem_cons, ht, false_and, if_false, false_or]

end Fold

theorem removeIf_snd (s : Stats α) (condition : String → Bool) :
    (s.removeIf condition).2 = s.named.foldl (fun s e => s.update e.2 fun stat => (stat.removeIf condition).2) s := by
  have hgen : ∀ (l : List (String × StatRef)) (n : Nat) (s : Stats α),
      (l.foldl (fun (p : Nat × Stats α) e => (p.1 + ((p.2.stat e.2).removeIf condition).1,
        p.2.update e.2 fun stat => (stat.removeIf condition).2)) (n, s)).2 =
        l.foldl (fun s e => s.update e.2 fun stat => (stat.removeIf condition).2) s := fun l => by
    induction l with
    | nil => exact fun _ _ => rfl
    | cons e l ih => exact fun n s => ih _ _
  exact hgen s.named 0 s

theorem named_clear (s : Stats α) : s.clear.named = [] := (foldl_update_same _ _ _).1

theorem tidy_clear (s : Stats α) : s.clear.Tidy := by
  unfold Tidy
  rw [named_clear]
  exact .nil _

/-- Clearing the stats clears each that a name stands for, and no other. -/
theorem Tidy.stat_clear (h : s.Tidy) (t : StatRef) :
    s.clear.stat t = if t ∈ s.named.map Prod.snd then (s.stat t).clear else s.stat t := by
  have hnumbered : Numbered s.named (⟨s.all, []⟩ : Stats α).all.size := h
  exact stat_foldl_update Stat.clear hnumbered t

theorem removeIf_same (s : Stats α) (condition : String → Bool) :
    (s.removeIf condition).2.named = s.named ∧ (s.removeIf condition).2.all.size = s.all.size := by
  rw [removeIf_snd]
  exact foldl_update_same _ _ _

theorem unregister_same (s : Stats α) (name : String) (id : ModifierId) :
    (s.unregister name id).named = s.named ∧ (s.unregister name id).all.size = s.all.size := by
  unfold unregister
  split
  · exact ⟨rfl, size_update ..⟩
  · exact ⟨rfl, rfl⟩

theorem Tidy.register (h : s.Tidy) (m : StatModifier α) : (s.register m).Tidy :=
  (h.demand m.stat).of_same rfl (size_update ..)

end Stats

end Fray
