import Fray.Toml.Document
import Fray.Toml.Marked

/-! Configuration by dotted path. The library only ever asks a configuration for truth values, each with a
    default that stands in for what is missing or no truth value. -/

namespace Fray

structure Config where
  root : Toml.Table

/-- A path of keys, such as `interaction-rules` and then `enabled`. -/
abbrev ConfigPath := List String

namespace ConfigPath

/-- Cuts at every point; `part` holds the part so far, nearest character first. -/
def cut (part : List Char) : List Char → List (List Char)
  | [] => [part.reverse]
  | c :: cs => if c = '.' then part.reverse :: cut [] cs else cut (c :: part) cs

/-- The path that a dotted text names. -/
def ofText (s : String) : ConfigPath := (cut [] s.toList).map String.ofList

/-- The dotted text of a path. -/
def text (p : ConfigPath) : String := ".".intercalate p

end ConfigPath

namespace Config

/-- Every value of an empty configuration is its default. -/
def empty : Config := ⟨[]⟩

def parse? (text : String) : Option Config := ((Toml.parse? text).bind Toml.readMarkedEntries).map Config.mk

/-- Why a configuration file gives no configuration. -/
inductive Failure where
  /-- There is no file that could be read. -/
  | absent
  | malformed
  deriving DecidableEq

/-- The configuration of a file; `file` is its text if it can be read. -/
def read (file : Option String) : Except Failure Config :=
  match file with
  | none => .error .absent
  | some text => match parse? text with
    | none => .error .malformed
    | some c => .ok c

/-- The configuration of a file, empty when the file gives none. -/
def load (file : Option String) : Config :=
  match read file with
  | .ok c => c
  | .error _ => empty

def lookup (c : Config) (p : ConfigPath) : Option Toml.Value := c.root.at? p

def bool (c : Config) (p : ConfigPath) (default : Bool) : Bool :=
  match c.lookup p with
  | some (.boolean b) => b
  | _ => default

/-- The type of what stands at a path in place of a truth value. -/
def mistyped? (c : Config) (p : ConfigPath) : Option String :=
  match c.lookup p with
  | some (.boolean _) => none
  | some v => some v.typeName
  | none => none

end Config

end Fray
