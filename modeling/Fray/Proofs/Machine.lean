import Mathlib.Tactic.Positivity
import Mathlib.Order.Compare
import Mathlib.Tactic.Common
import Fray.Amount

/-! Machine floats below zero. A float without the sign of a positive number keeps it that way when it is packed, so
    nothing is left of what was not above zero once damage is taken from it. -/

namespace Fray
namespace Amount

open Float.Model Float.Model.UnpackedFloat

/-- A float with the sign of a negative number, or no number. -/
def Sinks : UnpackedFloat → Prop
  | .notANumber => True
  | .infinity s | .zero s | .finite s _ _ _ => s = .negative

theorem sinks_dite {p : Prop} [Decidable p] {u : p → UnpackedFloat} {v : ¬p → UnpackedFloat} (hu : ∀ h, Sinks (u h))
    (hv : ∀ h, Sinks (v h)) : Sinks (if h : p then u h else v h) := by
  split
  · exact hu _
  · exact hv _

theorem sinks_ite {p : Prop} [Decidable p] {u v : UnpackedFloat} (hu : Sinks u) (hv : Sinks v) :
    Sinks (if p then u else v) := sinks_dite (fun _ => hu) fun _ => hv

theorem unpackSign_negative {spec : Format} (e : BitVec spec.exponentBits)
    (m : BitVec spec.mantissaBitsWithoutImplicit) :
    unpackSign (packComponents spec .negative e m) = Sign.toBitVec .negative := by
  ext i hi
  obtain rfl : i = 0 := by omega
  show (BitVec.cast _ (BitVec.extractLsb _ _ _))[0] = _
  simp [BitVec.extractLsb, packComponents, BitVec.getLsbD_append, ← BitVec.getLsbD_eq_getElem]

theorem unpackSign_pack {spec : Format} {u : UnpackedFloat} (h : Sinks u) (hn : u ≠ .notANumber) :
    unpackSign (UnpackedFloat.pack spec u) = Sign.toBitVec .negative := by
  cases u with
  | notANumber => exact absurd rfl hn
  | infinity s =>
    subst h
    exact unpackSign_negative ..
  | zero s =>
    subst h
    exact unpackSign_negative ..
  | finite s m e hm =>
    subst h
    show unpackSign (if _ then _ else if _ then _ else _) = _
    split
    · exact unpackSign_negative ..
    · split
      · exact unpackSign_negative ..
      · exact unpackSign_negative ..

theorem sinks_unpack_of_sign {spec : Format} {b : BitVec spec.numBits}
    (h : unpackSign b = Sign.toBitVec .negative) : Sinks (UnpackedFloat.unpack spec b) := by
  have hsign : Sign.ofBitVec (unpackSign b) = .negative := by
    rw [h]
    rfl
  unfold UnpackedFloat.unpack
  refine sinks_ite (sinks_ite hsign trivial) (sinks_ite ?_ hsign)
  exact sinks_dite (fun _ => hsign) fun _ => hsign

theorem sinks_unpack_pack {u : UnpackedFloat} (h : Sinks u) : Sinks (Float.Model.pack u).unpack := by
  by_cases hn : u = .notANumber
  · subst hn
    have hpacked : (Float.Model.pack .notANumber).unpack = .notANumber := by rfl
    rw [hpacked]
    trivial
  · exact sinks_unpack_of_sign (unpackSign_pack h hn)

theorem sinks_round (spec : Format) (m : Nat) (e : Int) : Sinks (UnpackedFloat.round spec .negative m e) := by
  unfold UnpackedFloat.round roundWithAccuracy
  exact sinks_dite (fun _ => rfl) fun _ => rfl

theorem decreaseExponent_pos {m : Nat} (h : 0 < m) (e target : Int) : 0 < (decreaseExponent m e target).1 := by
  simp only [decreaseExponent, Nat.shiftLeft_eq]
  positivity

/-- A mantissa that sinks is rounded to a float that sinks. -/
theorem sinks_sub_finite (spec : Format) {m n : Nat} (hm : 0 < m) (hn : 0 < n) (e f : Int) :
    Sinks (UnpackedFloat.sub spec (.finite .negative m e hm) (.finite .positive n f hn)) := by
  have hm' := decreaseExponent_pos hm e (min e f)
  have hn' := decreaseExponent_pos hn f (min e f)
  show Sinks (UnpackedFloat.normalize spec (-((decreaseExponent m e (min e f)).1 : Int) -
    (decreaseExponent n f (min e f)).1) (min e f) .positive)
  unfold UnpackedFloat.normalize
  split
  · exact sinks_round ..
  · next h =>
    rw [compare_eq_iff_eq] at h
    omega
  · next h =>
    rw [compare_gt_iff_gt] at h
    omega

/-- What is above zero. -/
theorem exists_of_zero_lt {v : UnpackedFloat} (h : (UnpackedFloat.zero .positive).lt v = true) :
    v = .infinity .positive ∨ ∃ m e hm, v = .finite .positive m e hm := by
  cases v with
  | notANumber => exact absurd h Bool.noConfusion
  | infinity s =>
    cases s with
    | positive => exact Or.inl rfl
    | negative => exact absurd h Bool.noConfusion
  | zero s => exact absurd h Bool.noConfusion
  | finite s m e hm =>
    cases s with
    | positive => exact Or.inr ⟨m, e, hm, rfl⟩
    | negative => exact absurd h Bool.noConfusion

/-- To take what is above zero from what is not sinks below zero. -/
theorem sinks_sub (spec : Format) {u v : UnpackedFloat} (hu : (UnpackedFloat.zero .positive).lt u = false)
    (hv : (UnpackedFloat.zero .positive).lt v = true) : Sinks (UnpackedFloat.sub spec u v) := by
  rcases exists_of_zero_lt hv with rfl | ⟨n, f, hn, rfl⟩
  · cases u with
    | notANumber => trivial
    | infinity s =>
      cases s with
      | positive => exact absurd hu Bool.noConfusion
      | negative => rfl
    | zero s => rfl
    | finite s m e hm => rfl
  · cases u with
    | notANumber => trivial
    | infinity s =>
      cases s with
      | positive => exact absurd hu Bool.noConfusion
      | negative => rfl
    | zero s => rfl
    | finite s m e hm =>
      cases s with
      | positive => exact absurd hu Bool.noConfusion
      | negative => exact sinks_sub_finite spec hm hn e f

/-! ### Amounts -/

/-- What damage does to health: it is above zero, it leaves nothing to whoever has nothing left, and nothing is not
    above zero. -/
structure Wounding (α : Type) [Amount α] : Prop where
  least : ∀ a : α, 0 < larger a leastDamage
  left : ∀ health damage : α, ¬ 0 < health → 0 < damage → IsZero (larger (health - damage) 0)
  zero : ∀ a : α, IsZero a → ¬ 0 < a

theorem lt_iff {a b : Float} : a < b ↔ a.toModel.unpack.lt b.toModel.unpack = true := decide_eq_true_iff

theorem le_iff {a b : Float} : a ≤ b ↔ a.toModel.unpack.le b.toModel.unpack = true := decide_eq_true_iff

-- The zero of amounts is written as they write it, so that it is found in what they say.
theorem unpack_zero : (@OfNat.ofNat Float 0 Zero.toOfNat0).toModel.unpack = .zero .positive := by rfl

theorem unpack_leastDamage : ∃ m e hm, (leastDamage : Float).toModel.unpack = .finite .positive m e hm :=
  ⟨_, _, _, rfl⟩

theorem isZero_larger_of_sinks {a : Float} (h : Sinks a.toModel.unpack) :
    IsZero (larger a (@OfNat.ofNat Float 0 Zero.toOfNat0)) := by
  unfold larger
  split
  · rw [IsZero, le_iff, unpack_zero]
    exact ⟨rfl, rfl⟩
  · next hnot =>
    obtain ⟨hlt, hle⟩ := not_or.mp hnot
    rw [lt_iff, unpack_zero] at hlt
    rw [not_not, le_iff] at hle
    unfold IsZero
    rw [le_iff, le_iff, unpack_zero]
    cases hu : a.toModel.unpack with
    | zero s => cases s <;> exact ⟨rfl, rfl⟩
    | notANumber =>
      rw [hu] at hle
      exact absurd hle Bool.noConfusion
    | infinity s =>
      rw [hu] at h hlt
      cases h
      exact absurd rfl hlt
    | finite s m e hm =>
      rw [hu] at h hlt
      cases h
      exact absurd rfl hlt

/-- A float that is not below the least damage, and is a number, is above zero. -/
theorem zero_lt_unpacked {u : UnpackedFloat} {m : Nat} {e : Int} {hm : 0 < m} (hle : u.le u = true)
    (hlt : ¬ u.lt (.finite .positive m e hm) = true) : (UnpackedFloat.zero .positive).lt u = true := by
  cases u with
  | notANumber => exact absurd hle Bool.noConfusion
  | zero s => exact absurd rfl hlt
  | infinity s =>
    cases s with
    | negative => exact absurd rfl hlt
    | positive => rfl
  | finite s m' e' hm' =>
    cases s with
    | negative => exact absurd rfl hlt
    | positive => rfl

theorem wounding_float : Wounding Float where
  least a := by
    obtain ⟨m, e, hm, hleast⟩ := unpack_leastDamage
    unfold larger
    split
    · rw [lt_iff, unpack_zero, hleast]
      rfl
    · next hnot =>
      obtain ⟨hlt, hle⟩ := not_or.mp hnot
      rw [lt_iff, hleast] at hlt
      rw [not_not, le_iff] at hle
      rw [lt_iff, unpack_zero]
      exact zero_lt_unpacked hle hlt
  left health damage hh hd := by
    rw [lt_iff, unpack_zero] at hh hd
    exact isZero_larger_of_sinks (sinks_unpack_pack (sinks_sub _ (Bool.eq_false_iff.mpr hh) hd))
  zero a h hlt := by
    have hle := h.1
    rw [le_iff, unpack_zero] at hle
    rw [lt_iff, unpack_zero] at hlt
    rcases exists_of_zero_lt hlt with hu | ⟨m, e, hm, hu⟩
    · rw [hu] at hle
      exact absurd hle Bool.noConfusion
    · rw [hu] at hle
      exact absurd hle Bool.noConfusion

end Amount
end Fray
