import Fray.Fault

/-! Shared things by name. -/

namespace Fray

structure Registry (β : Type) where
  /-- What the entries are, for the message about an absent one. -/
  kind : String
  entries : List (String × β) := []

namespace Registry

variable {β : Type}

def get? (r : Registry β) (name : String) : Option β := r.entries.lookup name

def contains (r : Registry β) (name : String) : Bool := (r.get? name).isSome

/-- An entry that has to be there. -/
def require {α : Type} (r : Registry β) (name : String) : Except (Fault α) β :=
  match r.get? name with
  | some b => .ok b
  | none => .error (.missing r.kind name)

/-- Stores an entry; answers the one that it replaces. -/
def register (r : Registry β) (name : String) (b : β) : Option β × Registry β :=
  (r.get? name, { r with entries := (name, b) :: r.entries.filter fun e => e.1 ≠ name })

/-- Takes an entry out; answers it. -/
def remove (r : Registry β) (name : String) : Option β × Registry β :=
  (r.get? name, { r with entries := r.entries.filter fun e => e.1 ≠ name })

def values (r : Registry β) : List β := r.entries.map Prod.snd

def size (r : Registry β) : Nat := r.entries.length

end Registry

end Fray
