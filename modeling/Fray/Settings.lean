import Fray.Toml.Document
import Fray.Toml.Write

/-! Settings of the demonstration and the document that they are kept in. A document may leave out any field,
    which then has its default; one ill-typed field makes the whole document unusable. -/

namespace Fray

structure LoggingSettings where
  /-- Which records are shown. -/
  filter : String := "info"
  /-- Show the target of each record. -/
  targets : Bool := false
  deriving DecidableEq

structure CombatSettings where
  /-- The path of the combat configuration. -/
  config : Option String := none
  deriving DecidableEq

structure ArenaSettings where
  /-- How many ticks are played. -/
  ticks : UInt64 := 200
  /-- How many wolves the knight fights. -/
  wolves : UInt32 := 3
  /-- The seed of a run that can be repeated. -/
  seed : Option UInt64 := none
  deriving DecidableEq

structure Settings where
  logging : LoggingSettings := {}
  combat : CombatSettings := {}
  arena : ArenaSettings := {}
  deriving DecidableEq

namespace Settings

open Toml (Value Table Section)

/-! ### Reading -/

/-- Where the fields of a record stand in a value: in a table by their names, in an array by their places. A date
    is read as a record without any of them. -/
def fields (names : List String) : Value → Option (String → Option Value)
  | .table entries => some fun name => entries.lookup name
  | .array values => some fun name => values[names.idxOf name]?
  | .datetime _ => some fun _ => none
  | _ => none

/-- A field, or its default when it is absent. -/
def field {β : Type} (part : String → Option Value) (name : String) (read : Value → Option β) (default : β) :
    Option β :=
  match part name with
  | none => some default
  | some v => read v

def readText : Value → Option String
  | .string s => some s
  | _ => none

def readTruth : Value → Option Bool
  | .boolean b => some b
  | _ => none

/-- A number from zero up to a bound, in the type that it is kept in. -/
def readCount {β : Type} (bound : Nat) (ofNat : Nat → β) : Value → Option β
  | .integer n => if 0 ≤ n ∧ n ≤ bound then some (ofNat n.toNat) else none
  | _ => none

/-- The largest number of 32 bits. -/
def maxWolves : Nat := Nat.pow 2 32 - 1

/-- The largest number that a document can hold. -/
def maxInteger : Nat := Nat.pow 2 63 - 1

def readLogging (v : Value) : Option LoggingSettings := do
  let part ← fields ["filter", "targets"] v
  return { filter := ← field part "filter" readText "info", targets := ← field part "targets" readTruth false }

def readCombat (v : Value) : Option CombatSettings := do
  let part ← fields ["config"] v
  return { config := ← field part "config" (fun v => (readText v).map some) none }

def readArena (v : Value) : Option ArenaSettings := do
  let part ← fields ["ticks", "wolves", "seed"] v
  return { ticks := ← field part "ticks" (readCount maxInteger UInt64.ofNat) 200,
           wolves := ← field part "wolves" (readCount maxWolves UInt32.ofNat) 3,
           seed := ← field part "seed" (fun v => (readCount maxInteger UInt64.ofNat v).map some) none }

/-- The settings that a document gives; none when one of its fields is ill-typed. -/
def ofTable (t : Table) : Option Settings := do
  let part name := t.lookup name
  return { logging := ← field part "logging" readLogging {}, combat := ← field part "combat" readCombat {},
           arena := ← field part "arena" readArena {} }

def parse? (text : String) : Option Settings := (Toml.parse? text).bind ofTable

/-- The settings of a file; the defaults when it is absent or unusable. -/
def load (file : Option String) : Settings := (file.bind parse?).getD {}

/-! ### Writing -/

/-- The sections of the settings. What is absent has no entry in them. -/
def sections (s : Settings) : List Section :=
  [("logging", [("filter", .string s.logging.filter), ("targets", .boolean s.logging.targets)]),
   ("combat", (s.combat.config.map fun path => ("config", .string path)).toList),
   ("arena", ("ticks", .integer s.arena.ticks.toNat) :: ("wolves", .integer s.arena.wolves.toNat) ::
     (s.arena.seed.map fun seed => ("seed", .integer seed.toNat)).toList)]

def toTable (s : Settings) : Table := Toml.document s.sections

/-- The text of the settings; none when a number is too large for a document. -/
def save? (s : Settings) : Option String := Toml.write? s.toTable

/-- Saves the settings to a file, in the place of what it held; answers whether they could be saved. A file that
    cannot hold them is left as it is. -/
def save (s : Settings) (file : Option String) : Bool × Option String :=
  match s.save? with
  | some text => (true, some text)
  | none => (false, file)

/-- The path of the combat configuration: the one set, else the one in the directory of the settings. -/
def combatPath (s : Settings) (directory : Option String) : Option String :=
  s.combat.config.or (directory.map (· ++ "/combat.toml"))

end Settings
end Fray
