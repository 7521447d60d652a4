import Fray.Damage.Attack
import Fray.Damage.Step
import Fray.Skill.Skill

/-! Scripts: what the listeners, the handlers and the effects of a stage do, written down as data. -/

namespace Fray
namespace Stage

/-- An attack that is still to be made. -/
structure Draft (α : Type) where
  value : α
  element : Option Element
  types : List DamageType
  /-- Who deals it, and with the hand of which slot. -/
  dealer : Option (EntityId × Slot)
  manner : Manner
  /-- Steps with its damage before anyone sees it. -/
  changes : List (Damage.Step α)

/-- The attack of a draft on a target. It needs a hand to deal it and a damage to begin with; a change that is
    refused is left out. -/
def Draft.attack {α : Type} [Amount α] (d : Draft α) (target : EntityId) : Except (Fault α) (Attack α) := do
  let attacker ← d.dealer.mapM fun (entity, slot) => Wielder.ofSlot entity slot
  let damage ← Damage.new d.value d.element d.types
  return ⟨damage.steps d.changes, target, attacker, d.manner⟩

/-- An entity that deals damage with the hand of a slot, in the tick in which it does. -/
structure Contribution (α : Type) where
  entity : EntityId
  slot : Slot
  target : EntityId
  value : α
  element : Option Element
  types : List DamageType

/-- A blow, in the current tick unless it names one. -/
structure Hit (α : Type) where
  target : EntityId
  damager : Option Damager
  amount : α
  cause : Cause
  tick : Option Nat

/-- What a listener does with an attack that it is shown. -/
inductive Reaction (α : Type) where
  | cancel
  | uncancel
  | contribute (contribution : Contribution α)
  /-- Registers another listener. -/
  | listen (name : String) (priority : Int) (times : Option Nat) (reactions : List (Reaction α))
      (verdict : Option Bool)
  | expire (tick : Nat)
  /-- Resolves a blow of its own. -/
  | resolve (hit : Hit α)
  | change (step : Damage.Step α)

/-- A listener, as far as it has come. -/
structure Listener (α : Type) where
  name : String
  /-- How often it will still react to an attack; without a bound, always. -/
  times : Option Nat
  reactions : List (Reaction α)
  /-- Whether it cancels a cast that it is told of; without a verdict it leaves the cast as it is. -/
  verdict : Option Bool

instance {α : Type} : Inhabited (Listener α) := ⟨⟨"", none, [], none⟩⟩

/-- A step with a channelled effect. -/
inductive ChannelStep where
  | start (delay period : Nat)
  | stop
  | isOver
  | task
  /-- A turn out of its time. -/
  | turn
  /-- Asks whether the caster is casting the skill. -/
  | isCasting
  /-- Asks how often the effect pulsed. -/
  | pulses
  deriving DecidableEq

/-- What a step with a channelled effect answers. -/
inductive ChannelAnswer (α : Type) where
  | done
  | refused (fault : Fault α)
  | task (id : TaskId)
  | truth (b : Bool)
  | count (n : Nat)

/-- What an effect does when its moment has come. -/
inductive Deed (α : Type) where
  /-- A step with the effect that has the same name now; `label` names the deed in the log. -/
  | step (label : String) (step : ChannelStep)
  /-- The caster attacks a target, or the target of the cast. -/
  | attack (label : String) (target : Option EntityId) (value : α) (element : Option Element)
      (types : List DamageType)

/-- What a channelled effect does. -/
structure EffectScript (α : Type) where
  /-- It ends after this many pulses. -/
  limit : Option Nat
  /-- It ends when this entity is dead. -/
  heart : Option EntityId
  onStart : List (Deed α)
  /-- What it does in a pulse, by the number of the pulse. -/
  onPulse : List (Nat × List (Deed α))
  onEnd : List (Deed α)

/-- A channelled effect, as far as it has come. -/
structure Effect (α : Type) where
  name : String
  script : EffectScript α
  pulses : Nat := 0

instance {α : Type} : Inhabited (Effect α) := ⟨⟨"", ⟨none, none, [], [], []⟩, 0⟩⟩

/-- When a handler accepts a cast. -/
inductive Acceptance where
  | always
  | never
  | withTarget
  /-- While the caster is not casting the skill. -/
  | whileIdle
  deriving DecidableEq

/-- What a handler does with a cast. -/
inductive Feat (α : Type) where
  /-- The caster attacks the target of the reply, for the value of a parameter if one is named. -/
  | attack (parameter : Option String) (value : α) (element : Option Element) (types : List DamageType)
  | fail (fault : Fault α)
  /-- Starts a channelled effect. -/
  | channel (name : String) (delay period : Nat) (script : EffectScript α)

structure HandlerScript (α : Type) where
  accepts : Acceptance
  /-- The parameters whose values are logged. -/
  shown : List String
  feats : List (Feat α)

instance {α : Type} : Inhabited (HandlerScript α) := ⟨⟨.always, [], []⟩⟩

end Stage
end Fray
