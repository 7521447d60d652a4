import Fray.Fault

/-! State of the connected entities. The state of an entity comes into being when the entity connects and is
    released when it disconnects; a handle taken in between stays good. -/

namespace Fray

/-- State that is attached to an entity: how it begins, and what happens to it once the entity is gone. -/
class EntityState (σ : Type) where
  fresh : σ
  release : σ → σ

/-- A handle of the state of an entity. -/
abbrev StateRef := Nat

structure Roster (σ : Type) where
  /-- Every state there ever was, by handle. -/
  states : Array σ := #[]
  connected : List (EntityId × StateRef) := []

namespace Roster

variable {σ : Type}

instance : Inhabited (Roster σ) := ⟨{}⟩

def get? (r : Roster σ) (e : EntityId) : Option StateRef := r.connected.lookup e

def contains (r : Roster σ) (e : EntityId) : Bool := (r.get? e).isSome

/-- The state of an entity that has to be connected. -/
def require {α : Type} (r : Roster σ) (e : EntityId) : Except (Fault α) StateRef :=
  match r.get? e with
  | some s => .ok s
  | none => .error (.noEntity e)

def ids (r : Roster σ) : List EntityId := r.connected.map Prod.fst

def size (r : Roster σ) : Nat := r.connected.length

def update (r : Roster σ) (s : StateRef) (f : σ → σ) : Roster σ := { r with states := r.states.modify s f }

variable [EntityState σ]

/-- The state behind a handle; a handle never given out stands for a fresh state. -/
def state (r : Roster σ) (s : StateRef) : σ := r.states.getD s EntityState.fresh

/-- The state of an entity, made when the entity was not connected. -/
def connect (r : Roster σ) (e : EntityId) : StateRef × Roster σ :=
  match r.get? e with
  | some s => (s, r)
  | none => (r.states.size, ⟨r.states.push EntityState.fresh, r.connected ++ [(e, r.states.size)]⟩)

/-- Releases and forgets the state of an entity; answers whether the entity was connected. -/
def disconnect (r : Roster σ) (e : EntityId) : Bool × Roster σ :=
  match r.get? e with
  | some s => (true, { r.update s EntityState.release with connected := r.connected.filter fun c => c.1 ≠ e })
  | none => (false, r)

end Roster

end Fray
