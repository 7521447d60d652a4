import Mathlib.Algebra.BigOperators.Finprod
import Mathlib.Algebra.Order.Ring.Rat
import Fray.Modifier.Stats
import Fray.Proofs.Collections
import Fray.Skill.Modifier

/-! The two passes in closed form, over exact amounts: the base and the sum of what the flat modifiers are worth, scaled
    by one factor for each relative modifier. The sum and the product run over identities, so nothing is left of the
    order in which a collection keeps its entries, or in which they came. -/

namespace Fray

variable {μ κ σ : Type} [IsModifier μ Rat]

/-! ### Sums and products over identities -/

namespace Entries

variable {ms : List μ}

theorem finprod_get? (h : (ms.map idOf).Nodup) (f : μ → Rat) : ∏ᶠ id, (get? ms id).elim 1 f = (ms.map f).prod := by
  have hsupport : (Function.mulSupport fun id => (get? ms id).elim 1 f) ⊆ (ms.map idOf).toFinset := by
    intro id hid
    by_contra hnot
    exact hid (by simp [get?_eq_none.mpr (by simpa using hnot)])
  rw [finprod_eq_prod_of_mulSupport_subset _ hsupport, List.prod_toFinset _ h, List.map_map]
  refine congrArg List.prod (List.map_congr_left fun m hm => ?_)
  rw [Function.comp_apply, (get?_eq_some h).mpr ⟨hm, rfl⟩, Option.elim_some]

theorem finsum_get? (h : (ms.map idOf).Nodup) (f : μ → Rat) : ∑ᶠ id, (get? ms id).elim 0 f = (ms.map f).sum := by
  have hsupport : (Function.support fun id => (get? ms id).elim 0 f) ⊆ (ms.map idOf).toFinset := by
    intro id hid
    by_contra hnot
    exact hid (by simp [get?_eq_none.mpr (by simpa using hnot)])
  rw [finsum_eq_sum_of_support_subset _ hsupport, List.sum_toFinset _ h, List.map_map]
  refine congrArg List.sum (List.map_congr_left fun m hm => ?_)
  rw [Function.comp_apply, (get?_eq_some h).mpr ⟨hm, rfl⟩, Option.elim_some]

end Entries

/-! ### The closed form -/

namespace Collection.Contents

/-- The modifier of an identity, if it has its turn in the pass. -/
def turn (c : Contents μ) (pass : Mode) (counts : μ → Bool) (id : ModifierId) : Option μ :=
  (c id).filter fun m => (modifier m).mode = pass && counts m

noncomputable def twoPass (c : Contents μ) (base : Rat) (counts : μ → Bool) (worth : μ → Rat) : Rat :=
  (base + ∑ᶠ id, (c.turn .flat counts id).elim 0 worth) *
    ∏ᶠ id, (c.turn .relative counts id).elim 1 fun m => 1 + worth m / 100

end Collection.Contents

theorem aggregate_eq (base : Rat) (ms : List μ) (counts : μ → Bool) (worth : μ → Rat) :
    aggregate base ms counts worth =
      (base + ((ms.filter fun m => (modifier m).mode = .flat && counts m).map worth).sum) *
        ((ms.filter fun m => (modifier m).mode = .relative && counts m).map fun m => 1 + worth m / 100).prod := by
  have hflat : ∀ (l : List μ) (b : Rat), l.foldl (fun total m => total + worth m) b = b + (l.map worth).sum := by
    intro l b
    rw [← List.foldl_map, List.foldl_eq_apply_foldr]
    rfl
  have hrelative : ∀ (l : List μ) (b : Rat), l.foldl (fun total m => total * (1 + worth m / 100)) b =
      b * (l.map fun m => 1 + worth m / 100).prod := by
    intro l b
    rw [← List.foldl_map, List.foldl_eq_apply_foldr]
    rfl
  exact (hrelative _ _).trans (by rw [hflat])

/-- Entries of distinct identities aggregate to the closed form of the map that they are. -/
theorem aggregate_eq_twoPass {ms : List μ} (h : (ms.map Entries.idOf).Nodup) (base : Rat) (counts : μ → Bool)
    (worth : μ → Rat) :
    aggregate base ms counts worth = Collection.Contents.twoPass (Entries.get? ms) base counts worth := by
  have hturn : ∀ pass id, Collection.Contents.turn (Entries.get? ms) pass counts id =
      Entries.get? (ms.filter fun m => (modifier m).mode = pass && counts m) id :=
    fun pass id => (Entries.get?_filter h _ id).symm
  simp only [aggregate_eq, Collection.Contents.twoPass, hturn]
  rw [Entries.finsum_get? (Entries.nodup_filter h _), Entries.finprod_get? (Entries.nodup_filter h _)]

/-! ### Collections -/

namespace Collection

variable {C : Collection σ κ μ}

/-- In whatever order the entries of a collection are enumerated, they aggregate to the closed form of what was
    last put in under each identity. -/
theorem Lawful.aggregate_perm (hC : C.Lawful) (ops : List (Op μ κ)) {ms : List μ} (hms : ms.Perm (C.entries (C.run ops)))
    (base : Rat) (counts : μ → Bool) (worth : μ → Rat) :
    aggregate base ms counts worth = (C.contents ops).twoPass base counts worth := by
  have hdistinct : (ms.map Entries.idOf).Nodup := (hms.map _).nodup_iff.mpr (hC.distinct_run ops)
  -- An enumeration in another order is the same map, though not the same list.
  have hget : Entries.get? ms = C.contents ops := by
    rw [← hC.get?_entries_run]
    ext id m
    rw [Entries.get?_eq_some hdistinct, Entries.get?_eq_some (hC.distinct_run ops), hms.mem_iff]
  rw [aggregate_eq_twoPass hdistinct, hget]

/-- A fresh modifier that is removed again leaves no trace. -/
theorem contents_insert_remove {ops : List (Op μ κ)} {m : μ} (h : C.contents ops (Entries.idOf m) = none) :
    C.contents (ops ++ [.insert m, .remove (Entries.idOf m)]) = C.contents ops := by
  have hsplit : ops ++ [.insert m, .remove (Entries.idOf m)] = (ops ++ [.insert m]) ++ [.remove (Entries.idOf m)] := by
    simp
  rw [hsplit, contents_append_singleton, contents_append_singleton, Op.contents, Op.contents, Function.update_idem,
    ← h, Function.update_eq_self]

theorem contents_insert_insert (ops : List (Op μ κ)) {m n : μ} (h : Entries.idOf n = Entries.idOf m) :
    C.contents (ops ++ [.insert m, .insert n]) = C.contents (ops ++ [.insert n]) := by
  have hsplit : ops ++ [.insert m, .insert n] = (ops ++ [.insert m]) ++ [.insert n] := by simp
  rw [hsplit, contents_append_singleton, contents_append_singleton, contents_append_singleton, Op.contents, Op.contents,
    Op.contents, h, Function.update_idem]

/-- Reading a collection takes the two passes over the modifiers that count, each for what it is worth. -/
structure TwoPass (C : Collection σ κ μ) (read : σ → Rat → Rat) (counts : μ → Bool) (worth : μ → Rat) : Prop where
  closed : ∀ ops base, read (C.run ops) base = (C.contents ops).twoPass base counts worth
  /-- The entries may be enumerated in any order. -/
  unordered : ∀ ops base (ms : List μ), ms.Perm (C.entries (C.run ops)) →
    aggregate base ms counts worth = (C.contents ops).twoPass base counts worth
  restored : ∀ ops m, C.contents ops (Entries.idOf m) = none → ∀ base,
    read (C.run (ops ++ [.insert m, .remove (Entries.idOf m)])) base = read (C.run ops) base

theorem Lawful.twoPass (hC : C.Lawful) {read : σ → Rat → Rat} {counts : μ → Bool} {worth : μ → Rat}
    (hread : ∀ s base, read s base = aggregate base (C.entries s) counts worth) : C.TwoPass read counts worth := by
  have hclosed : ∀ ops base, read (C.run ops) base = (C.contents ops).twoPass base counts worth := fun ops base =>
    (hread _ base).trans (hC.aggregate_perm ops (List.Perm.refl _) base counts worth)
  refine ⟨hclosed, fun ops base ms hms => hC.aggregate_perm ops hms base counts worth, fun ops m hm base => ?_⟩
  rw [hclosed, hclosed, contents_insert_remove hm]

end Collection

/-- Totals of a stat and parameters of a skill have one closed form, whatever was registered, replaced and removed
    before. A stacked copy of a modifier counts in the place of the modifier. -/
theorem two_pass :
    (∀ (counts : μ → Bool) (worth : μ → Rat),
      Stat.collection.TwoPass (fun s base => s.totalWith base counts worth) counts worth) ∧
    Stat.collection.TwoPass (μ := μ) Stat.total (fun m => Hand.main.admits (modifier m).source (modifier m).slot)
      (fun m => (modifier m).value) ∧
    (∀ (skill : SkillId) (parameter : String),
      ModifierMap.collection.TwoPass (fun s base => s.parameterValue skill base parameter)
        (fun m => decide (m.parameter = parameter ∧ skill ∈ m.targets)) (fun m => m.value)) ∧
    (∀ (ops : List (Collection.Op (StatModifier Rat) (String → Bool))) (m : StatModifier Rat) (offset : Rat),
      Stat.collection.contents (ops ++ [.insert m, .insert (m.add offset)]) =
        Stat.collection.contents (ops ++ [.insert (m.add offset)])) ∧
    ∀ (ops : List (Collection.Op (SkillModifier Rat) String)) (m : SkillModifier Rat) (offset : Rat),
      ModifierMap.collection.contents (ops ++ [.insert m, .insert (m.add offset)]) =
        ModifierMap.collection.contents (ops ++ [.insert (m.add offset)]) := by
  have hreaches : ∀ (skill : SkillId) (parameter : String), (fun m : SkillModifier Rat => m.appliesTo skill parameter) =
      fun m => decide (m.parameter = parameter ∧ skill ∈ m.targets) := by
    intro skill parameter
    funext m
    simp [SkillModifier.appliesTo]
  refine ⟨fun counts worth => Stat.collection_lawful.twoPass fun _ _ => rfl,
    Stat.collection_lawful.twoPass fun _ _ => rfl, fun skill parameter => ?_,
    fun ops m offset => Collection.contents_insert_insert ops rfl,
    fun ops m offset => Collection.contents_insert_insert ops rfl⟩
  rw [← hreaches]
  exact ModifierMap.collection_lawful.twoPass fun _ _ => rfl

end Fray
