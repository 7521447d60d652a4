import Fray.Modifier.Entries

/-! One value of one entity, as the modifiers that apply to it. -/

namespace Fray

structure Stat (μ : Type) where
  entries : List μ := []
  /-- Every modifier released so far, oldest first. -/
  released : List μ := []

namespace Stat

variable {α μ : Type} [IsModifier μ α]

instance : Inhabited (Stat μ) := ⟨{}⟩

def get? (s : Stat μ) (id : ModifierId) : Option μ := Entries.get? s.entries id

def contains (s : Stat μ) (id : ModifierId) : Bool := Entries.contains s.entries id

def size (s : Stat μ) : Nat := s.entries.length

/-- Stores a modifier; answers the one that it replaces, which is not released. -/
def register (s : Stat μ) (m : μ) : Option μ × Stat μ :=
  (s.get? (Entries.idOf m), { s with entries := Entries.put s.entries m })

/-- Removes and releases one modifier; answers it. An absent identity is no failure. -/
def remove (s : Stat μ) (id : ModifierId) : Option μ × Stat μ :=
  match s.get? id with
  | some m => (some m, ⟨Entries.erase s.entries id, s.released ++ [m]⟩)
  | none => (none, s)

/-- Removes and releases every modifier whose key satisfies the condition; answers how many there were. -/
def removeIf (s : Stat μ) (condition : String → Bool) : Nat × Stat μ :=
  let (out, rest) := s.entries.partition fun m => condition (modifier m).key
  (out.length, ⟨rest, s.released ++ out⟩)

def clear (s : Stat μ) : Stat μ := (s.removeIf fun _ => true).2

variable [Amount α]

/-- The value with the selected modifiers, each contributing `worth`. -/
def totalWith (s : Stat μ) (base : α) (counts : μ → Bool) (worth : μ → α) : α :=
  aggregate base s.entries counts worth

def totalOf (s : Stat μ) (base : α) (counts : μ → Bool) : α := s.totalWith base counts fun m => (modifier m).value

/-- The modifiers that count for the main hand. -/
def mainHand (m : μ) : Bool := (modifier m).countsFor .main

/-- The value as the main hand acts. -/
def total (s : Stat μ) (base : α) : α := s.totalOf base mainHand

end Stat

end Fray
