/-! Amounts of damage, health and time. Every rule of the library is written over one arithmetic, so the
    same definitions run on machine floats and are read with exact rationals. A float comparison with a
    value that is no number is false, which is why the rules below compare and never test for equality. -/

namespace Fray

/-- The arithmetic of amounts. -/
class Amount (α : Type) extends Zero α, One α, Add α, Sub α, Mul α, Div α, LE α, LT α where
  decLE : DecidableLE α
  decLT : DecidableLT α
  /-- What a sum of no amounts is. -/
  emptySum : α
  /-- The least damage that an applied attack deals. -/
  leastDamage : α
  ofNat : Nat → α
  /-- The nearest natural number, a half going up, held within 64 bits; zero for what is not positive. -/
  nearest : α → Nat
  /-- The integer part, held within 64 bits; zero for what is not positive. -/
  floor : α → Nat

instance Amount.decidableLE {α : Type} [Amount α] : DecidableLE α := Amount.decLE

instance Amount.decidableLT {α : Type} [Amount α] : DecidableLT α := Amount.decLT

namespace Amount

variable {α : Type} [Amount α]

/-- Sums run from the left. -/
def sum (xs : List α) : α := xs.foldl (· + ·) emptySum

/-- The larger of two amounts. An operand that is no number gives way to the other. -/
def larger (a b : α) : α := if a < b ∨ ¬ a ≤ a then b else a

/-- Both zeros of a machine float are zero. -/
def IsZero (a : α) : Prop := a ≤ 0 ∧ 0 ≤ a

instance (a : α) : Decidable (IsZero a) := inferInstanceAs (Decidable (_ ∧ _))

/-- Equality as numbers: the zeros agree, and what is no number equals nothing. -/
def same (a b : α) : Bool := decide (a ≤ b ∧ b ≤ a)

/-- The largest number of ticks, and the bound of every saturating conversion. -/
def maxWord : Nat := Nat.pow 2 64 - 1

end Amount

instance : Amount Float where
  zero := 0.0
  one := 1.0
  decLE := fun a b => inferInstanceAs (Decidable (a ≤ b))
  decLT := fun a b => inferInstanceAs (Decidable (a < b))
  emptySum := -0.0
  leastDamage := 0.01
  ofNat := Float.ofNat
  nearest x := x.round.toUInt64.toNat
  floor x := x.toUInt64.toNat

instance : Amount Rat where
  zero := 0
  one := 1
  decLE := inferInstance
  decLT := inferInstance
  emptySum := 0
  leastDamage := 1 / 100
  ofNat n := n
  nearest x := min (x + 1 / 2).floor.toNat Amount.maxWord
  floor x := min x.floor.toNat Amount.maxWord

end Fray
