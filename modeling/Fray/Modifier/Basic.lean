import Fray.Amount
import Fray.Fault

/-! Modifiers: numbers attached to an entity, and the two passes in which they change a value. The flat pass
    adds, then the relative pass scales the running total by `1 + value / 100` each. -/

namespace Fray

/-- How a modifier is applied. -/
inductive Mode where
  /-- Added to the running total. -/
  | flat
  /-- Scales the running total by `1 + value / 100`. -/
  | relative
  deriving DecidableEq

def Mode.all : List Mode := [.flat, .relative]

/-- A number attached to an entity, and where it is anchored. -/
structure Modifier (α : Type) where
  id : ModifierId
  /-- A label that several modifiers may share, such as the item that granted them. -/
  key : String
  source : Source
  slot : Slot
  value : α
  mode : Mode

/-- The kinds of modifiers, which know more than the number. -/
class IsModifier (μ : Type) (α : outParam Type) where
  modifier : μ → Modifier α

export IsModifier (modifier)

instance {α : Type} : IsModifier (Modifier α) α := ⟨id⟩

namespace Modifier

variable {α : Type}

/-- The text of a modifier: its value, with a percent sign when it scales. -/
def text (num : α → String) (m : Modifier α) : String :=
  num m.value ++ match m.mode with
    | .flat => ""
    | .relative => "%"

def isSame (m n : Modifier α) : Bool := m.id = n.id

/-- The same modifier, worth `offset` more. -/
def add [Amount α] (m : Modifier α) (offset : α) : Modifier α := { m with value := m.value + offset }

/-- Counts toward a computation that acts with the hand. -/
def countsFor (m : Modifier α) (hand : Hand) : Bool := hand.admits m.source m.slot

end Modifier

section Aggregation

variable {α μ : Type} [Amount α] [IsModifier μ α]

/-- The flat pass, then the relative pass, over the modifiers that `counts` selects, each contributing
    `worth`. The pass of a modifier is chosen by its own mode. -/
def aggregate (base : α) (ms : List μ) (counts : μ → Bool) (worth : μ → α) : α :=
  let inMode (mode : Mode) := ms.filter fun m => (modifier m).mode = mode && counts m
  let flat := (inMode .flat).foldl (fun total m => total + worth m) base
  (inMode .relative).foldl (fun total m => total * (1 + worth m / Amount.ofNat 100)) flat

end Aggregation

end Fray
