import Fray.Equipment
import Fray.Text.Uuid

/-! What an operation of the library can refuse, and the text of each refusal. -/

namespace Fray

/-- The three kinds of refusal. -/
inductive FaultKind where
  | invalidArgument
  | illegalState
  | missingEntry
  deriving DecidableEq

/-- Why an operation refused. -/
inductive Fault (α : Type) where
  /-- A packet was given a negative value, or one that is no number. -/
  | negativeDamage (value : α)
  | negativeCoefficient (value : α)
  | notAHand (slot : Slot)
  | noTargets
  /-- A skill was given a parameter that its handler does not declare. -/
  | unknownParameter (skill parameter : String)
  /-- A blow already carries its final damage. -/
  | alreadyWritten (previous : α)
  | alreadyScheduled (task : TaskId)
  | beingScheduled
  | notScheduled
  | engineDropped
  /-- Nothing of this kind is registered under the name. -/
  | missing (kind name : String)
  /-- A skill effect refused an argument in its own words. -/
  | argumentRefused (text : String)
  /-- A skill effect refused a state in its own words. -/
  | stateRefused (text : String)

namespace Fault

variable {α : Type}

def kind : Fault α → FaultKind
  | negativeDamage _ | negativeCoefficient _ | notAHand _ | noTargets | unknownParameter _ _
  | argumentRefused _ => .invalidArgument
  | alreadyWritten _ | alreadyScheduled _ | beingScheduled | notScheduled | engineDropped
  | stateRefused _ => .illegalState
  | missing _ _ => .missingEntry

/-- No entity with this identity is connected. -/
def noEntity (e : EntityId) : Fault α := .missing "entity" e.text

/-- What went wrong, without the kind of refusal; `num` writes amounts. -/
def cause (num : α → String) : Fault α → String
  | negativeDamage v => "damage value cannot be negative, got " ++ num v
  | negativeCoefficient v => "damage coefficient cannot be negative, got " ++ num v
  | notAHand slot => slot.name ++ " is not a hand slot"
  | noTargets => "a skill modifier must target at least one skill"
  | unknownParameter skill parameter => s!"skill '{skill}' has no parameter '{parameter}'"
  | alreadyWritten v => "final damage already written (" ++ num v ++ ")"
  | alreadyScheduled task => "Already scheduled as " ++ task.text
  | beingScheduled => "Already being scheduled"
  | notScheduled => "Not scheduled yet"
  | engineDropped => "combat engine was dropped"
  | missing kind name => s!"no {kind} registered as '{name}'"
  | argumentRefused text | stateRefused text => text

/-- The whole message: a missing entry speaks for itself, the other kinds are named first. -/
def message (num : α → String) (f : Fault α) : String :=
  match f.kind with
  | .invalidArgument => "invalid argument: " ++ f.cause num
  | .illegalState => "illegal state: " ++ f.cause num
  | .missingEntry => f.cause num

end Fault

namespace Slot

variable {α : Type}

/-- The hand of the slot, refused for a slot that is none. -/
def requireHand (s : Slot) : Except (Fault α) Hand :=
  match s.hand? with
  | some h => .ok h
  | none => .error (.notAHand s)

/-- The slot of the other hand. -/
def opposite (s : Slot) : Except (Fault α) Slot := do
  let h ← s.requireHand
  return h.opposite.slot

/-- The acting slot admits a modifier of `source` at `slot`; refused when the acting slot is no hand. -/
def admits (acting : Slot) (source : Source) (slot : Slot) : Except (Fault α) Bool := do
  let h ← acting.requireHand
  return h.admits source slot

end Slot

end Fray
