import Fray.Decimal.Binary

/-! Decimal text with a fixed number of places: the exact value is rounded once, and a tie goes to the even
    neighbour. -/

namespace Fray
namespace Decimal

/-- The integer nearest to `r`, a half going to the even neighbour. -/
def Ratio.nearestEven (r : Ratio) : Nat :=
  let d := r.num / r.den
  let rest := 2 * (r.num % r.den)
  if rest < r.den then d else if r.den < rest then d + 1 else d + d % 2

/-- Rounding moves a fraction by half a unit at most. -/
theorem Ratio.nearestEven_near (r : Ratio) (h : 0 < r.den) :
    2 * r.num ≤ (2 * r.nearestEven + 1) * r.den ∧ 2 * (r.nearestEven * r.den) ≤ 2 * r.num + r.den := by
  have hd := Nat.div_add_mod r.num r.den
  have hm := Nat.mod_lt r.num h
  have hc : r.num / r.den * r.den = r.den * (r.num / r.den) := Nat.mul_comm _ _
  unfold nearestEven
  simp only
  split
  · rw [Nat.add_mul, Nat.mul_assoc]; omega
  · split
    · rw [Nat.add_mul, Nat.mul_assoc, Nat.add_mul]; omega
    · rcases Nat.mod_two_eq_zero_or_one (r.num / r.den) with e | e <;>
        rw [e, Nat.add_mul, Nat.mul_assoc, Nat.add_mul] <;> omega

/-- The text of a float with `places` decimals; the sign of a negative value stays even when all its written
    digits are zeros. -/
def fixedText (places : Nat) (x : Float) : String :=
  match Binary.ofFloat x with
  | .nan => "NaN"
  | .infinite negative => if negative then "-inf" else "inf"
  | .finite negative m q =>
    let n := ((Ratio.scaled m 2 q).mul ⟨Nat.pow 10 places, 1⟩).nearestEven
    let digits := Nat.toDigits 10 (n / Nat.pow 10 places) ++
      if places = 0 then [] else
        let ds := Nat.toDigits 10 (n % Nat.pow 10 places)
        '.' :: List.replicate (places - ds.length) '0' ++ ds
    String.ofList (if negative then '-' :: digits else digits)

end Decimal
end Fray
