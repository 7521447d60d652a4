import Fray.Modifier.Basic

/-! Entries by identity: a list with at most one modifier of each identity, in the order in which the
    identities came in. -/

namespace Fray
namespace Entries

variable {α μ : Type} [IsModifier μ α]

def idOf (m : μ) : ModifierId := (modifier m).id

def get? (ms : List μ) (id : ModifierId) : Option μ := ms.find? fun m => idOf m = id

def contains (ms : List μ) (id : ModifierId) : Bool := ms.any fun m => idOf m = id

/-- Stores a modifier in the place of the one with its identity, or behind all others. -/
def put (ms : List μ) (m : μ) : List μ :=
  if contains ms (idOf m) then ms.map fun x => if idOf x = idOf m then m else x else ms ++ [m]

def erase (ms : List μ) (id : ModifierId) : List μ := ms.filter fun m => idOf m ≠ id

theorem contains_iff {ms : List μ} {id : ModifierId} : contains ms id = true ↔ id ∈ ms.map idOf := by
  simp only [contains, List.any_eq_true, decide_eq_true_eq, List.mem_map]

theorem map_idOf_put (ms : List μ) (m : μ) :
    (put ms m).map idOf = if contains ms (idOf m) then ms.map idOf else ms.map idOf ++ [idOf m] := by
  unfold put
  split
  · rw [List.map_map]
    refine List.map_congr_left fun x _ => ?_
    simp only [Function.comp_apply]
    split
    · next h => exact h.symm
    · rfl
  · simp

/-- Storing keeps the identities distinct. -/
theorem nodup_put {ms : List μ} (h : (ms.map idOf).Nodup) (m : μ) : ((put ms m).map idOf).Nodup := by
  rw [map_idOf_put]
  split
  · exact h
  · next hc =>
    rw [contains_iff] at hc
    rw [List.nodup_append]
    refine ⟨h, by simp, fun a ha b hb => ?_⟩
    simp only [List.mem_cons, List.not_mem_nil, or_false] at hb
    subst hb
    intro e
    exact hc (e ▸ ha)

end Entries
end Fray
