import Fray.Engine.Cast
import Fray.Engine.Resolve
import Fray.Stage.Script

/-! A stage: a host made of plain records, on which every part of the engine can be rehearsed without a game.
    Its listeners, handlers and effects follow scripts, and log what they are told and what they did. -/

namespace Fray

/-- What a stage knows about an entity. -/
structure Actor (α : Type) where
  health : α
  player : Bool
  alive : Bool := true
  targetable : Bool := true
  pvp : Bool := true
  main : HeldItem := .empty
  off : HeldItem := .empty

namespace Stage

/-- The moments of a channelled effect. -/
inductive Moment where
  | start
  | pulse
  | finish
  deriving DecidableEq

/-- Something that was told or done on a stage. -/
inductive Entry (α : Type) where
  | attack (listener : String) (attack : Attack α) (cancelled : Bool)
  | finalized (listener : String) (attack : Attack α) (final : α)
  | kill (listener : String) (attacker target : EntityId) (damage : α)
  | preCast (listener : String) (skill : SkillId) (caster : EntityId) (target : Option EntityId)
      (cancelled : Bool)
  | postCast (listener : String) (skill : SkillId) (target : Option EntityId)
  | castStart (listener : String) (caster : EntityId) (skill : SkillId)
  | castEnd (listener : String) (caster : EntityId) (skill : SkillId)
  | indicator (target : EntityId) (indicator : Indicator α)
  | contributed (listener : String) (attack : Except (Fault α) (Attack α))
  | expired (listener : String) (count : Nat)
  | resolved (listener : String) (outcome : Outcome α) (blow : Blow α)
  | changed (listener : String) (answer : Damage.Answer α)
  | performed (skill : SkillId) (caster : Wielder) (target : Option EntityId) (values : List α)
      (source : Option (Attack α))
  | moment (m : Moment) (effect : String) (pulses : Nat)
  | stepped (label : String) (answer : ChannelAnswer α)
  | attacked (label : String) (attack : Except (Fault α) (Attack α))

end Stage

structure Stage (α : Type) where
  now : Nat := 0
  actors : List (EntityId × Actor α) := []
  /-- By listener id. -/
  listeners : Array (Stage.Listener α) := #[]
  /-- By handler handle. -/
  handlers : Array (Stage.HandlerScript α) := #[]
  /-- By channel handle. -/
  effects : Array (Stage.Effect α) := #[]
  /-- The effect that each name stands for now. -/
  channels : List (String × ChannelRef) := []
  /-- A job without delay runs while it is being scheduled. -/
  eager : Bool := false
  /-- Oldest first. -/
  log : Array (Stage.Entry α) := #[]

namespace Stage

variable {α : Type}

def actor? (s : Stage α) (e : EntityId) : Option (Actor α) := s.actors.lookup e

/-- Puts an actor on the stage, in place of the one with its identity. -/
def put (s : Stage α) (e : EntityId) (a : Actor α) : Stage α :=
  { s with actors := (e, a) :: s.actors.filter fun p => p.1 ≠ e }

instance : Host (Stage α) α where
  tick s := s.now
  alive s e := (s.actor? e).any (·.alive)
  health s e := ((s.actor? e).filter (·.alive)).map (·.health)
  player s e := (s.actor? e).any (·.player)
  targetable s e := (s.actor? e).any fun a => a.alive && a.targetable
  pvp s e := (s.actor? e).any (·.pvp)
  held s e hand := ((s.actor? e).map fun a => match hand with
    | .main => a.main
    | .off => a.off).getD .empty

/-- What happens on a stage. -/
abbrev Play (α β : Type) := Act α (Stage α) β

def update (f : Stage α → Stage α) : Play α Unit := modify fun w => { w with host := f w.host }

def record (e : Entry α) : Play α Unit := update fun s => { s with log := s.log.push e }

def listen (l : Listener α) (priority : Int) : Play α Unit := do
  let id := (← get).host.listeners.size
  update fun s => { s with listeners := s.listeners.push l }
  World.subscribe ⟨.listener id, priority⟩

/-- Unsubscribes the last listener of a name; answers whether it was subscribed. -/
def dismiss (name : String) : Play α Bool := do
  let listeners := (← get).host.listeners
  match (List.range listeners.size).reverse.find? fun id => (listeners.getD id default).name = name with
  | some id => World.unsubscribe id
  | none => return false

def handle (info : HandlerInfo) (script : HandlerScript α) : Play α Unit := do
  let ref := (← get).host.handlers.size
  update fun s => { s with handlers := s.handlers.push script }
  World.registerHandler ⟨info, ref⟩

/-- Makes a channelled effect of a cast, which the name stands for from now on. -/
def channel (name : String) (c : Casting α) (script : EffectScript α) : Play α ChannelRef := do
  let r ← World.newChannel c
  update fun s =>
    { s with effects := s.effects.push ⟨name, script, 0⟩,
             channels := (name, r) :: s.channels.filter fun p => p.1 ≠ name }
  return r

variable [Amount α]

/-- The damage of one acting entity, as the attack that it went into. -/
def contribute (c : Contribution α) : Play α (Except (Fault α) (Attack α)) := do
  let r ← (show Try α (Stage α) AttackRef from do
    let wielder ← Try.ofExcept (Wielder.ofSlot c.entity c.slot)
    World.attack wielder c.target c.value c.element c.types).run
  let w ← get
  return r.map w.windows.attack

def blow (s : Stage α) (h : Hit α) : Blow α where
  target := h.target
  damager := h.damager
  cause := h.cause
  amount := h.amount
  tick := h.tick.getD s.now

def change (r : AttackRef) (step : Damage.Step α) : Play α (Damage.Answer α) := do
  let (damage, answer) := ((← get).windows.attack r).damage.step step
  World.updateWindows (·.update r fun a => { a with damage })
  return answer

/-- A cast of a registered skill by a connected entity, perhaps set off by an attack. -/
def casting (caster : EntityId) (slot : Slot) (skill : SkillId) (target : Option EntityId)
    (source : Option (Draft α × EntityId)) : Try α (Stage α) (Casting α) := do
  let w ← get
  let skill ← Try.ofExcept (w.skills.require skill.text)
  let caster ← Try.ofExcept (Wielder.ofSlot caster slot)
  let state ← Try.ofExcept (w.roster.require caster.entity)
  let source ← Try.ofExcept (source.mapM fun (draft, target) => draft.attack target)
  return ⟨skill, caster, state, target, source⟩

end Stage
end Fray
