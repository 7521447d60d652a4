import Fray.Engine.Resolve

/-! An arena in memory. It hands every blow to the engine and deals what the engine decides; a fighter without
    health left is dead. -/

namespace Fray

structure Fighter (α : Type) where
  name : String
  health : α
  player : Bool
  /-- What the main hand holds; the off hand holds nothing. -/
  held : HeldItem

/-- A burning aura, as far as it has come. -/
structure Aura (α : Type) where
  damage : α
  /-- How often it pulses. -/
  limit : Nat
  pulses : Nat := 0

structure Arena (α : Type) where
  tick : Nat := 0
  /-- Whether players may fight each other. -/
  pvp : Bool := false
  /-- In the order in which they entered. -/
  fighters : Array (Fighter α) := #[]
  /-- The burning auras, by the channel that each is. -/
  auras : List (ChannelRef × Aura α) := []

namespace Arena

variable {α : Type}

/-- The identity of the fighter that entered after `i` others, none of 64 bits. -/
def idOf (i : Nat) : EntityId := ⟨Nat.pow 2 64 + i⟩

/-- The place of a fighter in the order of entering; none for what never entered. -/
def place? (e : EntityId) : Option Nat := if Nat.pow 2 64 ≤ e.val then some (e.val - Nat.pow 2 64) else none

theorem place?_idOf (i : Nat) : place? (idOf i) = some i := by simp [place?, idOf]

def fighter? (a : Arena α) (e : EntityId) : Option (Fighter α) := (place? e).bind fun i => a.fighters[i]?

/-- The name of a fighter; whoever is none goes by its identity. -/
def name (a : Arena α) (e : EntityId) : String := ((a.fighter? e).map (·.name)).getD e.text

/-- Ahead in the order of names, and at equal names in the order of entering. -/
def isAhead (x y : String × Nat) : Bool := x.1 < y.1 || (x.1 = y.1 && x.2 ≤ y.2)

variable [Amount α]

def Fighter.isAlive (f : Fighter α) : Bool := 0 < f.health

/-- The living fighters that are players or those that are none, in the order of their names. -/
def living (a : Arena α) (players : Bool) : List EntityId :=
  let fit := a.fighters.toList.zipIdx.filter fun (f, _) => f.player = players && Fighter.isAlive f
  ((fit.map fun (f, i) => (f.name, i)).mergeSort isAhead).map fun x => idOf x.2

instance : Host (Arena α) α where
  tick a := a.tick
  alive a e := (a.fighter? e).any Fighter.isAlive
  health a e := ((a.fighter? e).filter Fighter.isAlive).map (·.health)
  player a e := (a.fighter? e).any (·.player)
  targetable a e := (a.fighter? e).any Fighter.isAlive
  pvp a _ := a.pvp
  held a e hand := match hand with
    | .main => ((a.fighter? e).map (·.held)).getD .empty
    | .off => .empty

def update (f : Arena α → Arena α) : Act α (Arena α) Unit := modify fun w => { w with host := f w.host }

def spawn (f : Fighter α) : Act α (Arena α) EntityId := do
  let i := (← get).host.fighters.size
  update fun a => { a with fighters := a.fighters.push f }
  World.note (.enters f.name f.health)
  return idOf i

/-- The next tick; answers it. -/
def advance : Act α (Arena α) Nat := do
  update fun a => { a with tick := a.tick + 1 }
  return (← get).host.tick

/-- Takes health from a fighter. One that has none left falls. -/
def hurt (e : EntityId) (damage : α) : Act α (Arena α) Unit := do
  let some i := place? e | return ()
  let some f := (← get).host.fighters[i]? | return ()
  let health := Amount.larger (f.health - damage) 0
  update fun a => { a with fighters := a.fighters.modify i fun f => { f with health } }
  if Amount.IsZero health then World.note (.falls f.name)

/-- A blow of the current tick: the engine resolves it, and what it decides is dealt. -/
def strike (l : Listeners α (Arena α)) (damager : Option Damager) (target : EntityId) (cause : Cause) (amount : α) :
    Act α (Arena α) (Outcome α) := do
  let tick := (← get).host.tick
  let (outcome, b) ← World.resolve l { target, damager, cause, amount, tick }
  if let some damage := b.final then hurt target damage
  return outcome

end Arena
end Fray
