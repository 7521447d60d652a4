import Fray.Damage.Indicator
import Fray.Engine.World

/-! Telling listeners. Who is told of an event is settled when the telling begins: a listener that another one
    registers or removes meanwhile is told, or not told, from the next event on. -/

namespace Fray

/-- What the listeners do when they are told, and where damage numbers are shown. -/
structure Listeners (α η : Type) where
  /-- Answers whether the attack is cancelled, knowing whether it is so far. -/
  attack : ListenerId → AttackRef → (cancelled : Bool) → Act α η Bool
  kill : ListenerId → (attacker target : EntityId) → Attack α → Act α η Unit
  finalized : ListenerId → Attack α → (final : α) → Act α η Unit
  /-- Answers whether the cast is cancelled, knowing whether it is so far. -/
  preCast : ListenerId → Casting α → Reply → (cancelled : Bool) → Act α η Bool
  postCast : ListenerId → Casting α → Reply → Act α η Unit
  castStart : ListenerId → (caster : EntityId) → SkillId → Act α η Unit
  castEnd : ListenerId → (caster : EntityId) → SkillId → Act α η Unit
  display : (target : EntityId) → Indicator α → Act α η Unit

namespace Listeners

variable {α η : Type}

def silent : Listeners α η where
  attack _ _ cancelled := pure cancelled
  kill _ _ _ _ := pure ()
  finalized _ _ _ := pure ()
  preCast _ _ _ cancelled := pure cancelled
  postCast _ _ _ := pure ()
  castStart _ _ _ := pure ()
  castEnd _ _ _ := pure ()
  display _ _ := pure ()

/-- Enters an event into the history; answers who is told of it. -/
def announce (e : Event α) : Act α η (List Ear) := do
  let w ← get
  set { w with history := w.history.push e }
  return w.bus.ears

/-- Tells every listener of an event that none of them can stop. -/
def tell (e : Event α) (call : ListenerId → Act α η Unit) : Act α η Unit := do
  (← announce e).forM fun
    | .listener id => call id
    | .indicators => pure ()

/-- Asks every listener in turn whether an event is cancelled. -/
def ask (e : Event α) (call : ListenerId → Bool → Act α η Bool) : Act α η Bool := do
  (← announce e).foldlM (fun cancelled ear => match ear with
    | .listener id => call id cancelled
    | .indicators => pure cancelled) false

variable (l : Listeners α η)

def askAttack (r : AttackRef) : Act α η Bool := ask (.attack r) fun id cancelled => l.attack id r cancelled

def tellKill (attacker target : EntityId) (a : Attack α) : Act α η Unit :=
  tell (.kill attacker target a) fun id => l.kill id attacker target a

/-- Tells of an applied attack, and shows its damage numbers where its turn has come. -/
def tellFinalized [Amount α] (a : Attack α) (final : α) : Act α η Unit := do
  (← announce (.finalized a final)).forM fun
    | .listener id => l.finalized id a final
    | .indicators => (Indicator.ofDamage a.damage final).forM (l.display a.target)

def askPreCast (c : Casting α) (r : Reply) : Act α η Bool :=
  ask (.preCast c r) fun id cancelled => l.preCast id c r cancelled

def tellPostCast (c : Casting α) (r : Reply) : Act α η Unit := tell (.postCast c r) fun id => l.postCast id c r

def tellCastStart (r : ChannelRef) (caster : EntityId) (skill : SkillId) : Act α η Unit :=
  tell (.castStart r caster skill) fun id => l.castStart id caster skill

def tellCastEnd (r : ChannelRef) (caster : EntityId) (skill : SkillId) : Act α η Unit :=
  tell (.castEnd r caster skill) fun id => l.castEnd id caster skill

end Listeners

end Fray
