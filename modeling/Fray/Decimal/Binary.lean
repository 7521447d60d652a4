/-! The exact value of a machine float: a sign and a magnitude `m * 2 ^ q`. -/

namespace Fray
namespace Decimal

/-- A nonnegative fraction; `den` is positive wherever one is built. -/
structure Ratio where
  num : Nat
  den : Nat

namespace Ratio

/-- `n * base ^ k`, for an exponent of either sign. -/
def scaled (n base : Nat) : Int → Ratio
  | .ofNat k => ⟨n * Nat.pow base k, 1⟩
  | .negSucc k => ⟨n, Nat.pow base (k + 1)⟩

def floor (r : Ratio) : Nat := r.num / r.den

def mul (a b : Ratio) : Ratio := ⟨a.num * b.num, a.den * b.den⟩

def le (a b : Ratio) : Bool := a.num * b.den ≤ b.num * a.den

def lt (a b : Ratio) : Bool := a.num * b.den < b.num * a.den

def dist (a b : Ratio) : Ratio :=
  ⟨(a.num * b.den - b.num * a.den) + (b.num * a.den - a.num * b.den), a.den * b.den⟩

end Ratio

/-- What the bits of a float stand for. -/
inductive Binary where
  | nan
  | infinite (negative : Bool)
  /-- The value `m * 2 ^ q` with its sign; a zero keeps its sign. -/
  | finite (negative : Bool) (m : Nat) (q : Int)

/-- Reads a float of 64 bits: one bit of sign, eleven of exponent, fifty-two of fraction. -/
def Binary.ofBits (bits : Nat) : Binary :=
  let negative : Bool := bits / Nat.pow 2 63 % 2 = 1
  let exponent : Nat := bits / Nat.pow 2 52 % Nat.pow 2 11
  let fraction : Nat := bits % Nat.pow 2 52
  if exponent = 2047 then if fraction = 0 then .infinite negative else .nan
  else if exponent = 0 then .finite negative fraction (-1074)
  else .finite negative (Nat.pow 2 52 + fraction) ((exponent : Int) - 1075)

def Binary.ofFloat (x : Float) : Binary := ofBits x.toBits.toNat

/-- The number of decimal digits of `n`; none for zero. -/
def width (n : Nat) : Nat := if n = 0 then 0 else (Nat.toDigits 10 n).length

/-- The exponent `e` with `10 ^ e ≤ r < 10 ^ (e + 1)`, for a positive `r`. -/
def magnitude (r : Ratio) : Int :=
  if r.den ≤ r.num then (width r.floor : Int) - 1 else -(width ((r.den + r.num - 1) / r.num - 1) : Int)

end Decimal
end Fray
