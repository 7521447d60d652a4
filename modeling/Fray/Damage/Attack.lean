import Fray.Damage.Tally
import Fray.Ident

/-! Attacks, that is damage from someone to someone, and the blows of the host that they answer. -/

namespace Fray

/-- An entity acting with one hand. -/
structure Wielder where
  entity : EntityId
  hand : Hand
  deriving DecidableEq

/-- An acting entity; the slot has to be a hand. -/
def Wielder.ofSlot {α : Type} (entity : EntityId) (slot : Slot) : Except (Fault α) Wielder := do
  let hand ← slot.requireHand
  return ⟨entity, hand⟩

/-- How an attack reaches its target. -/
inductive Manner where
  | generic
  | melee
  | projectile (projectile : EntityId)
  deriving DecidableEq

structure Attack (α : Type) where
  damage : Damage α
  target : EntityId
  attacker : Option Wielder
  manner : Manner

instance {α : Type} : Inhabited (Attack α) := ⟨⟨.empty, default, none, .generic⟩⟩

def Attack.isProjectile {α : Type} (a : Attack α) : Bool :=
  match a.manner with
  | .projectile _ => true
  | _ => false

/-- Everything that happens to one target from one attacker within one tick shares a window. -/
structure WindowKey where
  target : EntityId
  attacker : Option EntityId
  tick : Nat
  deriving DecidableEq

/-- What dealt the damage, as the host sees it. -/
inductive Damager where
  | entity (e : EntityId)
  | projectile (projectile : EntityId) (shooter : Option EntityId)
  deriving DecidableEq

/-- The entity responsible: the damager itself, or who shot the projectile. -/
def Damager.source : Damager → Option EntityId
  | .entity e => some e
  | .projectile _ shooter => shooter

/-- Damage that the host is about to deal, handed over before it does. -/
structure Blow (α : Type) where
  target : EntityId
  damager : Option Damager
  cause : Cause
  /-- What the host was about to deal. -/
  amount : α
  tick : Nat
  cancelled : Bool := false
  /-- What the host has to deal, once the blow is resolved. -/
  final : Option α := none

namespace Blow

variable {α : Type}

def attacker (b : Blow α) : Option EntityId := b.damager.bind Damager.source

def key (b : Blow α) : WindowKey := ⟨b.target, b.attacker, b.tick⟩

def cancel (b : Blow α) : Blow α := { b with cancelled := true }

/-- The final damage is written once. -/
def write (b : Blow α) (damage : α) : Except (Fault α) (Blow α) :=
  match b.final with
  | some previous => .error (.alreadyWritten previous)
  | none => .ok { b with final := some damage }

end Blow

/-- How the resolution of a blow ended. -/
inductive Outcome (α : Type) where
  /-- No attack: the blow deals nothing. -/
  | ignored
  | cancelled
  /-- The attacker may not hit the target. -/
  | denied
  | applied (damage : α) (killed : Bool)

end Fray
