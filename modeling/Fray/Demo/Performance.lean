import Fray.Decimal.Shortest
import Fray.Demo.Fight
import Fray.Log.Filter

/-! The demonstration as a whole. Everything that it has to say is a log; it reads two files, and on its first
    run it writes one. -/

namespace Fray
namespace Demo

/-- What the demonstration finds when it begins. -/
structure Surroundings where
  /-- The directory of its files, if there is one. -/
  directory : Option String
  /-- The text of a file at a path. -/
  file : String → Option String
  /-- A seed for when the settings hold none. -/
  entropy : UInt64

/-- What the demonstration leaves behind. -/
structure Performance where
  /-- It came to its end. -/
  ok : Bool
  /-- The lines of its log. -/
  lines : List String
  /-- The settings that it wrote. -/
  saved : Option String

namespace Surroundings

def settingsPath (s : Surroundings) : Option String := s.directory.map (· ++ "/settings.toml")

def settings? (s : Surroundings) : Option String := s.settingsPath.bind s.file

end Surroundings

/-! ### Files -/

/-- What is noted while the settings are loaded. -/
def loadingNote (s : Surroundings) : Note Float :=
  match s.settingsPath with
  | none => .settings .warn "Could not determine config directory"
  | some path =>
    match s.file path with
    | none => .settings .info "No settings file found, using defaults"
    | some text =>
      if (Settings.parse? text).isSome then .settings .info ("Loaded settings from " ++ Note.quotedPath path)
      else .settings .warn "Failed to parse settings, using defaults"

/-- What is written on the first run, and what is noted about it. -/
def firstRun (s : Surroundings) (settings : Settings) : Option String × List (Note Float) :=
  match s.settingsPath, s.settings? with
  | some path, none =>
    let (ok, file) := settings.save none
    (file, if ok then [.settings .info ("Saved settings to " ++ Note.quotedPath path)]
      else [.said .warn "Failed to save default settings"])
  | _, _ => (none, [])

/-- The combat configuration, and what is noted while it is loaded. -/
def configuration (s : Surroundings) (settings : Settings) : Config × Note Float :=
  match (do
    let path ← settings.combatPath s.directory
    return (path, ← s.file path)) with
  | none => (.empty, .said .info "No combat configuration, using defaults")
  | some (path, text) =>
    match Config.parse? text with
    | some c => (c, .configLoaded path)
    | none => (.empty, .configUnreadable)

/-! ### The run -/

/-- The filter of the settings; a malformed one shows what an information is or graver. There is none when it
    would be torn. -/
def filter? (s : Settings) : Option Log.Filter :=
  match Log.Filter.parse s.logging.filter with
  | .ok f => some f
  | .error .malformed => some (.ofLevel .info)
  | .error .torn => none

/-- The lines of the notes that a filter shows. -/
def shown (f : Log.Filter) (targets : Bool) (notes : List (Note Float)) : List String :=
  ((notes.map (Note.record Decimal.shortestText)).filter f.shows).map (Log.Record.line targets)

/-- Runs the demonstration. While the settings are loaded, the filter of the defaults holds; without a filter
    there is nothing more. -/
def run (s : Surroundings) : Performance :=
  let settings := Settings.load s.settings?
  let loading := shown (.ofLevel .info) false [loadingNote s]
  match filter? settings with
  | none => { ok := false, lines := loading, saved := none }
  | some filter =>
    let (saved, savingNotes) := firstRun s settings
    let (config, configNote) := configuration s settings
    let (ended, w) := (fight config settings s.entropy).run (World.new {} config)
    { ok := ended.isOk,
      lines := loading ++ shown filter settings.logging.targets (savingNotes ++ configNote :: w.journal.toList),
      saved }

end Demo
end Fray
