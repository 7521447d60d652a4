import Fray.Combatant
import Fray.Engine.Event
import Fray.Interaction.Gate
import Fray.Journal
import Fray.Registry
import Fray.Timetable

/-! The world that the engine acts on: its own state, its scheduler, and the host `η` that it is part of. What
    the host does when it is told something is no part of the world; it is handed to each operation that may
    tell it. -/

namespace Fray

/-- Where a channelled effect stands. -/
inductive Phase where
  | idle
  /-- Started, and not yet known to the scheduler. -/
  | starting
  | running (task : TaskId)
  /-- Ended; without a task when it ended before it had one. -/
  | ended (task : Option TaskId)
  deriving DecidableEq

/-- A repeating effect of one cast. -/
structure Channel (α : Type) where
  casting : Casting α
  phase : Phase := .idle

instance {α : Type} : Inhabited (Channel α) := ⟨⟨default, .idle⟩⟩

/-- What the engine has scheduled. -/
inductive Job (α : Type) where
  | delayedCast (casting : Casting α) (reply : Reply)
  /-- A turn of a channelled effect. -/
  | channel (channel : ChannelRef)

/-- Turns a blow that nobody contributed to into an attack, or leaves it to the next. -/
abbrev Discoverer (α η : Type) := η → Blow α → Option (Attack α)

structure World (α η : Type) where
  host : η
  windows : Windows α := {}
  /-- Asked in this order; the first attack wins. -/
  discoverers : List (Discoverer α η) := []
  bus : Bus := {}
  /-- Everything listeners were told of, oldest first. -/
  history : Array (Event α) := #[]
  roster : Roster (Combatant α) := {}
  gate : Gate
  handlers : Registry Handler := { kind := "skill handler" }
  skills : Registry (Skill α) := { kind := "skill" }
  /-- Every channelled effect, by handle. -/
  channels : Array (Channel α) := #[]
  timetable : Timetable (Job α) := {}
  /-- The engine is still there. -/
  running : Bool := true
  /-- What was noted down, oldest first. -/
  journal : Array (Note α) := #[]

instance {α η : Type} : HasTimetable (World α η) (Job α) where
  timetable w := w.timetable
  setTimetable t w := { w with timetable := t }

/-- An action on a world. -/
abbrev Act (α η β : Type) := StateM (World α η) β

/-- An action that may refuse. What it did before it refused stays done. -/
abbrev Try (α η β : Type) := ExceptT (Fault α) (StateM (World α η)) β

/-- Goes on with the answer of a check. -/
def Try.ofExcept {α η β : Type} (e : Except (Fault α) β) : Try α η β := ExceptT.mk (pure e)

/-- Goes on after an action that cannot refuse. -/
def Try.ofAct {α η β : Type} (x : Act α η β) : Try α η β := ExceptT.lift x

namespace World

variable {α η : Type}

def note (n : Note α) : Act α η Unit := modify fun w => { w with journal := w.journal.push n }

def noteAll (ns : List (Note α)) : Act α η Unit := modify fun w => { w with journal := w.journal ++ ns }

/-- What is noted while the rules of a configuration are loaded. -/
def ruleNotes (c : Config) : List (Note α) :=
  ((Rules.consulted c).filterMap fun p => (c.mistyped? p).map fun type => .mistyped p.text type true) ++
    if Rules.areEnabled c then [] else [.rulesSwitchedOff]

/-- A world without entities, under the rules of a configuration. -/
def new (host : η) (c : Config) : World α η where
  host
  gate := { rules := Rules.load c }
  journal := (.engineStarted :: ruleNotes c).toArray

def reload (c : Config) : Act α η Unit := do
  modify fun w => { w with gate := { w.gate with rules := Rules.load c } }
  noteAll (ruleNotes c ++ [.rulesReloaded])

/-! ### Entities -/

/-- Connects an entity; one that is connected keeps its state. -/
def connect (e : EntityId) : Act α η StateRef := do
  let w ← get
  let (s, roster) := w.roster.connect e
  set { w with roster }
  unless w.roster.contains e do note (.connected e)
  return s

/-- Disconnects an entity and releases its state; answers whether it was connected. -/
def disconnect (e : EntityId) : Act α η Bool := do
  let w ← get
  let (was, roster) := w.roster.disconnect e
  set { w with roster }
  if was then note (.disconnected e)
  return was

def combatant (w : World α η) (s : StateRef) : Combatant α := w.roster.state s

def updateCombatant (s : StateRef) (f : Combatant α → Combatant α) : Act α η Unit :=
  modify fun w => { w with roster := w.roster.update s f }

/-! ### Listeners, handlers and skills -/

def subscribe (s : Subscription) : Act α η Unit := do
  let w ← get
  let bus := w.bus.register s
  set { w with bus }
  note (.listenerRegistered bus.size)

/-- Answers whether the listener was subscribed. -/
def unsubscribe (id : ListenerId) : Act α η Bool := do
  let w ← get
  let (was, bus) := w.bus.unregister (.listener id)
  set { w with bus }
  return was

def indicatorsPath : ConfigPath := ["game-indicators", "damage", "enabled"]

/-- Shows damage numbers unless the configuration switches them off; answers whether they are shown. -/
def enableIndicators (c : Config) : Act α η Bool := do
  if let some type := c.mistyped? indicatorsPath then note (.mistyped indicatorsPath.text type true)
  if c.bool indicatorsPath true then
    subscribe .indicators
    return true
  else
    note .indicatorsSwitchedOff
    return false

/-- Registers a handler under its name, in place of the one with that name. -/
def registerHandler (h : Handler) : Act α η Unit := do
  let w ← get
  let (old, handlers) := w.handlers.register h.info.id.text h
  set { w with handlers }
  if old.isSome then note (.handlerReplaced h.info.id)

/-- Registers a skill under the name of its handler. -/
def registerSkill (s : Skill α) : Act α η Unit :=
  modify fun w => { w with skills := (w.skills.register s.id.text s).2 }

/-- Registers a skill of a registered handler with the values of its parameters; answers its name. -/
def learn (handler : SkillId) (parameters : List (String × α)) : Try α η SkillId := do
  let handler ← Try.ofExcept ((← get).handlers.require handler.text)
  let skill ← parameters.foldlM (fun (s : Skill α) (name, value) => Try.ofExcept (s.withParameter name value))
    ⟨handler, []⟩
  .ofAct (registerSkill skill)
  return skill.id

/-! ### Extensions of the game -/

/-- Asked after every discoverer that is there. -/
def addDiscoverer (d : Discoverer α η) : Act α η Unit :=
  modify fun w => { w with discoverers := w.discoverers ++ [d] }

def addRestriction (r : Restriction) : Act α η Unit :=
  modify fun w => { w with gate := { w.gate with restrictions := w.gate.restrictions ++ [r] } }

def addClassifier (c : Classifier) : Act α η Unit :=
  modify fun w => { w with gate := { w.gate with classifiers := w.gate.classifiers ++ [c] } }

/-! ### Casts -/

/-- The value of a parameter of a cast, under the skill modifiers of its caster. -/
def parameter [Amount α] (w : World α η) (c : Casting α) (name : String) : α :=
  (w.combatant c.state).skillModifiers.parameterValue c.skill.id (c.skill.parameter name) name

end World

end Fray
