/-! Records of a log, and how a record is written on a line. -/

namespace Fray
namespace Log

/-- How grave a record is, gravest first. -/
inductive Level where
  | error
  | warn
  | info
  | debug
  | trace
  deriving DecidableEq

namespace Level

def name : Level → String
  | error => "ERROR"
  | warn => "WARN"
  | info => "INFO"
  | debug => "DEBUG"
  | trace => "TRACE"

/-- The verbosity from which on a level is shown. -/
def verbosity : Level → Nat
  | error => 1
  | warn => 2
  | info => 3
  | debug => 4
  | trace => 5

end Level

structure Record where
  level : Level
  /-- The part of the program that speaks. -/
  target : String
  message : String
  fields : List (String × String) := []

/-- The names of the fields, of which the message is one. -/
def Record.fieldNames (r : Record) : List String := "message" :: r.fields.map (·.1)

/-- The line of a record: its level, its target if targets are shown, its message, then its fields. -/
def Record.line (showTarget : Bool) (r : Record) : String :=
  r.level.name ++ " " ++ (if showTarget then r.target ++ ": " else "") ++ r.message ++
    String.join (r.fields.map fun f => " " ++ f.1 ++ "=" ++ f.2)

end Log
end Fray
