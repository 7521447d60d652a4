import Fray.Damage.Window
import Fray.Skill.Skill

/-! Notifications, and who is told of them. Listeners are told in the order of their priorities, lower first,
    and at equal priorities in the order in which they were registered. -/

namespace Fray

/-- A handle of a channelled effect. -/
abbrev ChannelRef := Nat

/-- A handle of a listener. -/
abbrev ListenerId := Nat

/-- What listeners are told of. -/
inductive Event (α : Type) where
  /-- An attack is about to be applied; it can still be changed and cancelled. -/
  | attack (attack : AttackRef)
  /-- An attack killed its target. -/
  | kill (attacker target : EntityId) (attack : Attack α)
  /-- An attack was applied and is forgotten. -/
  | finalized (attack : Attack α) (final : α)
  /-- A skill passed its checks and is about to be cast; it can still be cancelled. -/
  | preCast (casting : Casting α) (reply : Reply)
  | postCast (casting : Casting α) (reply : Reply)
  /-- A channelled effect began. -/
  | castStart (channel : ChannelRef) (caster : EntityId) (skill : SkillId)
  /-- A channelled effect ended. -/
  | castEnd (channel : ChannelRef) (caster : EntityId) (skill : SkillId)

inductive Ear where
  | listener (id : ListenerId)
  /-- Shows the damage numbers of applied attacks. -/
  | indicators
  deriving DecidableEq

structure Subscription where
  ear : Ear
  priority : Int
  deriving DecidableEq

/-- Damage numbers are shown after every other listener had its turn. -/
def Subscription.indicators : Subscription := ⟨.indicators, 0x7fffffff⟩

structure Bus where
  subscriptions : List Subscription := []

namespace Bus

/-- Behind every subscription whose priority is not higher. -/
def insert (s : Subscription) : List Subscription → List Subscription
  | [] => [s]
  | t :: ts => if t.priority ≤ s.priority then t :: insert s ts else s :: t :: ts

def register (b : Bus) (s : Subscription) : Bus := ⟨insert s b.subscriptions⟩

/-- Removes every subscription of an ear; answers whether there was one. -/
def unregister (b : Bus) (e : Ear) : Bool × Bus :=
  (b.subscriptions.any fun s => s.ear = e, ⟨b.subscriptions.filter fun s => s.ear ≠ e⟩)

def size (b : Bus) : Nat := b.subscriptions.length

def ears (b : Bus) : List Ear := b.subscriptions.map (·.ear)

end Bus

end Fray
