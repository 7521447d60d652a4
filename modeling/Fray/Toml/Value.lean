/-! Values of a TOML document. -/

namespace Fray
namespace Toml

/-- A value of a document. A date or time is kept as it is written. -/
inductive Value where
  | string (text : String)
  | integer (value : Int)
  | float (value : Float)
  | boolean (value : Bool)
  | datetime (text : String)
  | array (values : List Value)
  | table (entries : List (String × Value))

/-- The entries of a table. -/
abbrev Table := List (String × Value)

namespace Value

def typeName : Value → String
  | string _ => "string"
  | integer _ => "integer"
  | float _ => "float"
  | boolean _ => "boolean"
  | datetime _ => "datetime"
  | array _ => "array"
  | table _ => "table"

def table? : Value → Option Table
  | table entries => some entries
  | _ => none

/-- The value that a path of keys leads to, from this value on. -/
def at? (v : Value) : List String → Option Value
  | [] => some v
  | key :: path => do
    let entries ← v.table?
    let next ← entries.lookup key
    next.at? path

end Value

/-- The value at a path of keys that is not empty. -/
def Table.at? (t : Table) : List String → Option Value
  | [] => none
  | key :: path => (t.lookup key).bind (·.at? path)

end Toml
end Fray
