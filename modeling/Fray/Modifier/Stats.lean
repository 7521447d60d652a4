import Fray.Modifier.Stat

/-! The stats of one entity by name. A stat comes into being when it is first asked for by name, and a handle
    taken then stays good after the stat was dropped from the names. -/

namespace Fray

/-- A modifier of one named stat. -/
structure StatModifier (α : Type) extends Modifier α where
  stat : String

instance {α : Type} : IsModifier (StatModifier α) α := ⟨StatModifier.toModifier⟩

/-- The same modifier, worth `offset` more. -/
def StatModifier.add {α : Type} [Amount α] (m : StatModifier α) (offset : α) : StatModifier α :=
  { m with toModifier := m.toModifier.add offset }

/-- A handle of a stat of one entity. -/
abbrev StatRef := Nat

structure Stats (α : Type) where
  /-- Every stat there ever was, by handle. -/
  all : Array (Stat (StatModifier α)) := #[]
  named : List (String × StatRef) := []

namespace Stats

variable {α : Type}

instance : Inhabited (Stats α) := ⟨{}⟩

def ref? (s : Stats α) (name : String) : Option StatRef := s.named.lookup name

/-- The stat behind a handle; a handle never given out stands for a stat without modifiers. -/
def stat (s : Stats α) (r : StatRef) : Stat (StatModifier α) := s.all.getD r {}

def get? (s : Stats α) (name : String) : Option (Stat (StatModifier α)) := (s.ref? name).map s.stat

def update (s : Stats α) (r : StatRef) (f : Stat (StatModifier α) → Stat (StatModifier α)) : Stats α :=
  { s with all := s.all.modify r f }

/-- The handle of a stat, which is made when the name is new. -/
def demand (s : Stats α) (name : String) : StatRef × Stats α :=
  match s.ref? name with
  | some r => (r, s)
  | none => (s.all.size, ⟨s.all.push {}, s.named ++ [(name, s.all.size)]⟩)

def names (s : Stats α) : List String := s.named.map Prod.fst

def register (s : Stats α) (m : StatModifier α) : Stats α :=
  let (r, s) := s.demand m.stat
  s.update r fun stat => (stat.register m).2

/-- Removes a modifier from a stat; nothing happens when there is no such stat. -/
def unregister (s : Stats α) (name : String) (id : ModifierId) : Stats α :=
  match s.ref? name with
  | some r => s.update r fun stat => (stat.remove id).2
  | none => s

/-- Removes and releases, across all named stats, every modifier whose key satisfies the condition; answers
    how many there were. -/
def removeIf (s : Stats α) (condition : String → Bool) : Nat × Stats α :=
  s.named.foldl (fun (n, s) (_, r) =>
    (n + ((s.stat r).removeIf condition).1, s.update r fun stat => (stat.removeIf condition).2)) (0, s)

/-- Drops every name, then removes and releases the modifiers of each stat that had one. -/
def clear (s : Stats α) : Stats α :=
  s.named.foldl (fun s (_, r) => s.update r Stat.clear) { s with named := [] }

/-- The value of a stat as the main hand acts; a stat without modifiers is its base. -/
def total [Amount α] (s : Stats α) (name : String) (base : α) : α :=
  match s.get? name with
  | some stat => stat.total base
  | none => base

end Stats

end Fray
