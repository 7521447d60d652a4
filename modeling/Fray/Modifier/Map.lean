import Fray.Modifier.Entries

/-! Modifiers of one kind that one entity owns. A removed modifier is released; one that is replaced is not,
    for it is the same modifier. -/

namespace Fray

structure ModifierMap (μ : Type) where
  entries : List μ := []
  /-- Every modifier released so far, oldest first. -/
  released : List μ := []

namespace ModifierMap

variable {α μ : Type} [IsModifier μ α]

instance : Inhabited (ModifierMap μ) := ⟨{}⟩

def get? (s : ModifierMap μ) (id : ModifierId) : Option μ := Entries.get? s.entries id

def contains (s : ModifierMap μ) (id : ModifierId) : Bool := Entries.contains s.entries id

def size (s : ModifierMap μ) : Nat := s.entries.length

def isolate (s : ModifierMap μ) (hand : Hand) : List μ := s.entries.filter fun m => (modifier m).countsFor hand

/-- Stores a modifier; answers the one that it replaces. -/
def add (s : ModifierMap μ) (m : μ) : Option μ × ModifierMap μ :=
  (s.get? (Entries.idOf m), { s with entries := Entries.put s.entries m })

/-- Takes out and releases the modifiers that satisfy `p`. -/
def removeWhere (s : ModifierMap μ) (p : μ → Bool) : ModifierMap μ where
  entries := s.entries.filter fun m => !p m
  released := s.released ++ s.entries.filter p

/-- Removes one modifier; answers it. An absent identity is no failure. -/
def remove (s : ModifierMap μ) (id : ModifierId) : Option μ × ModifierMap μ :=
  (s.get? id, s.removeWhere fun m => Entries.idOf m = id)

/-- Removes every modifier with the key; answers how many there were. -/
def removeKey (s : ModifierMap μ) (key : String) : Nat × ModifierMap μ :=
  let p (m : μ) : Bool := (modifier m).key = key
  ((s.entries.filter p).length, s.removeWhere p)

def clear (s : ModifierMap μ) : ModifierMap μ where
  entries := []
  released := s.released ++ s.entries

end ModifierMap

end Fray
