import Fray.Decimal.Binary

/-! The shortest decimal text of a float: the fewest digits that read back as the float, and of those the
    nearest to it. The text is positional at every magnitude; a whole number has no point. -/

namespace Fray
namespace Decimal

/-- The values that read back as `m * 2 ^ q`, an interval whose ends belong to it exactly when `m` is even.
    Below a power of two the neighbouring float is half as far. -/
structure Rounding where
  value : Ratio
  low : Ratio
  high : Ratio
  closed : Bool

def Rounding.of (m : Nat) (q : Int) : Rounding where
  value := .scaled m 2 q
  low := .scaled (if m = Nat.pow 2 52 ∧ q ≠ -1074 then 4 * m - 1 else 4 * m - 2) 2 (q - 2)
  high := .scaled (4 * m + 2) 2 (q - 2)
  closed := m % 2 = 0

def Rounding.holds (i : Rounding) (r : Ratio) : Bool :=
  if i.closed then i.low.le r && r.le i.high else i.low.lt r && r.lt i.high

/-- The multiple of `10 ^ k` that reads back as the value and is nearest to it, the larger one of a tie. -/
def Rounding.onGrid? (i : Rounding) (k : Int) : Option Nat :=
  let below := (i.value.mul (.scaled 1 10 (-k))).floor
  let above := below + 1
  let lower := Ratio.scaled below 10 k
  let upper := Ratio.scaled above 10 k
  match i.holds lower, i.holds upper with
  | true, true => some (if (lower.dist i.value).lt (upper.dist i.value) then below else above)
  | true, false => some below
  | false, true => some above
  | false, false => none

/-- Tries ever finer grids, `tries` of them from exponent `k` down. -/
def Rounding.search (i : Rounding) : (tries : Nat) → (k : Int) → Nat × Int
  | 0, k => ((i.value.mul (.scaled 1 10 (-k))).floor, k)
  | tries + 1, k =>
    match i.onGrid? k with
    | some d => (d, k)
    | none => i.search tries (k - 1)

/-- The digits `d` and exponent `k` of the shortest `d * 10 ^ k` that reads back as `m * 2 ^ q`. The coarsest
    grid is the power of ten above the value, which a value just below it may reach; from there seventeen
    digits are always enough. -/
def shortest (m : Nat) (q : Int) : Nat × Int :=
  let i := Rounding.of m q
  i.search 18 (magnitude i.value + 1)

/-- `d * 10 ^ k` without an exponent. -/
def positional (d : Nat) (k : Int) : List Char :=
  let ds := Nat.toDigits 10 d
  match k with
  | .ofNat k => ds ++ List.replicate k '0'
  | .negSucc k =>
    let places := k + 1
    if places < ds.length then ds.take (ds.length - places) ++ '.' :: ds.drop (ds.length - places)
    else '0' :: '.' :: List.replicate (places - ds.length) '0' ++ ds

/-- The text of a float inside a message. -/
def shortestText (x : Float) : String :=
  match Binary.ofFloat x with
  | .nan => "NaN"
  | .infinite negative => if negative then "-inf" else "inf"
  | .finite negative m q =>
    let digits := if m = 0 then ['0'] else let (d, k) := shortest m q; positional d k
    String.ofList (if negative then '-' :: digits else digits)

end Decimal
end Fray
