import Fray.Fault
import Fray.Log.Record
import Fray.Skill.Ident

/-! What the engine and its games note down, and how each note is recorded. -/

namespace Fray

open Log (Level Record)

inductive Note (α : Type) where
  | configMissing (path : String)
  | configLoaded (path : String)
  | configUnreadable
  /-- A configuration holds something else where a truth value is asked for. -/
  | mistyped (path type : String) (used : Bool)
  | rulesSwitchedOff
  | rulesReloaded
  | engineStarted
  | indicatorsSwitchedOff
  | handlerReplaced (skill : SkillId)
  | listenerRegistered (total : Nat)
  | connected (entity : EntityId)
  | disconnected (entity : EntityId)
  /-- Windows of earlier ticks were dropped before anyone resolved them. -/
  | windowsDropped (count tick : Nat)
  | attackDenied (attacker target : EntityId)
  | attackFailed (target : EntityId) (fault : Fault α)
  | castDelayed (skill : SkillId) (task : TaskId) (ticks : Nat)
  | delayedCastFailed (skill : SkillId) (fault : Fault α)
  | channelStarted (skill : SkillId) (task : TaskId)
  | channelEnded (skill : SkillId) (task : Option TaskId)
  | enters (name : String) (health : α)
  | falls (name : String)
  | wreathed (name : String)
  | flamesDie (name : String)
  /-- A line of the demonstration itself. -/
  | said (level : Level) (line : String)
  /-- A line about the settings. -/
  | settings (level : Level) (line : String)

namespace Note

/-- A path between double quotes. -/
def quotedPath (path : String) : String :=
  String.join ("\"" :: (path.toList.map fun c =>
    if c = '"' then "\\\"" else if c = '\\' then "\\\\" else if c = '\n' then "\\n" else if c = '\t' then "\\t"
    else if c = '\r' then "\\r" else String.singleton c) ++ ["\""])

/-- The record of a note; `num` writes amounts. -/
def record {α : Type} (num : α → String) : Note α → Record
  | configMissing p => ⟨.info, "skirmish_combat::config", s!"No configuration at {quotedPath p}, using defaults", []⟩
  | configLoaded p => ⟨.info, "skirmish_combat::config", s!"Loaded configuration from {quotedPath p}", []⟩
  | configUnreadable => ⟨.warn, "skirmish_combat::config", "failed to parse configuration, using defaults", []⟩
  | mistyped p type used =>
    ⟨.warn, "skirmish_combat::config", s!"Expected a boolean at '{p}', found {type}, using {used}", []⟩
  | rulesSwitchedOff =>
    ⟨.info, "skirmish_combat::interaction::rules", "Interaction rules disabled, every interaction is allowed", []⟩
  | rulesReloaded => ⟨.info, "skirmish_combat::interaction::gate", "Reloaded interaction rules", []⟩
  | engineStarted => ⟨.info, "skirmish_combat::engine", "Starting combat engine", []⟩
  | indicatorsSwitchedOff => ⟨.info, "skirmish_combat::engine", "Damage indicators disabled", []⟩
  | handlerReplaced skill => ⟨.debug, "skirmish_combat::engine", s!"Replaced skill handler '{skill.text}'", []⟩
  | listenerRegistered n =>
    ⟨.debug, "skirmish_combat::event", s!"Registered combat listener ({n} total)", []⟩
  | connected e => ⟨.debug, "skirmish_store::entity", "Connected entity " ++ e.text, []⟩
  | disconnected e => ⟨.debug, "skirmish_store::entity", "Disconnected entity " ++ e.text, []⟩
  | windowsDropped count tick =>
    ⟨.debug, "skirmish_combat::damage::manager", "Dropped unresolved attack windows",
      [("dropped", toString count), ("tick", toString tick)]⟩
  | attackDenied attacker target =>
    ⟨.debug, "skirmish_combat::damage::manager", "Attack denied by interaction rules",
      [("attacker", attacker.text), ("target_entity", target.text)]⟩
  | attackFailed target fault =>
    ⟨.error, "skirmish_combat::damage::manager", "Could not resolve attack: " ++ fault.message num,
      [("target_entity", target.text)]⟩
  | castDelayed skill task ticks =>
    ⟨.debug, "skirmish_combat::skill::cast", s!"Cast delayed by {ticks} ticks",
      [("skill", skill.text), ("task", task.text)]⟩
  | delayedCastFailed skill fault =>
    ⟨.warn, "skirmish_combat::skill::cast", "Delayed cast failed: " ++ fault.message num, [("skill", skill.text)]⟩
  | channelStarted skill task =>
    ⟨.debug, "skirmish_combat::skill::runnable", "Skill task started",
      [("skill", skill.text), ("task", task.text)]⟩
  | channelEnded skill task =>
    let id := match task with
      | some t => s!"Some(TaskId({t.val}))"
      | none => "None"
    ⟨.debug, "skirmish_combat::skill::runnable", "Skill task ended", [("skill", skill.text), ("task", id)]⟩
  | enters name health => ⟨.info, "skirmish::arena", s!"{name} enters the arena ({num health} hp)", []⟩
  | falls name => ⟨.info, "skirmish::arena", name ++ " falls", []⟩
  | wreathed name => ⟨.info, "skirmish::skills", name ++ " is wreathed in flames", []⟩
  | flamesDie name => ⟨.info, "skirmish::skills", s!"The flames around {name} die down", []⟩
  | said level line => ⟨level, "skirmish", line, []⟩
  | settings level line => ⟨level, "skirmish::settings", line, []⟩

end Note

end Fray
