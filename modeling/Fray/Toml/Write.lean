import Fray.Toml.Quote

/-! Writing a TOML document of sections, each a table of strings, integers and truth values. A document has no integer
    that exceeds 64 bits with a sign: a table that holds one is not written at all. -/

namespace Fray
namespace Toml

/-- A table with its name. -/
abbrev Section := String × Table

/-- The table of sections. -/
def document (ss : List Section) : Table := ss.map fun s => (s.1, .table s.2)

/-- A value as it stands behind its key. There is none for an integer that a document cannot hold, nor for a value that
    is no string, integer or truth value. -/
def writeValue? : Value → Option String
  | .string text => some (quote text)
  | .integer i => (checkedInteger i).map toString
  | .boolean b => some (if b then "true" else "false")
  | _ => none

/-- The line of a key, which needs no quotes, and its value. -/
def writeEntry? (e : String × Value) : Option String := (writeValue? e.2).map (e.1 ++ " = " ++ ·)

/-- The header of a section, and a line for each of its entries. -/
def writeSection? : String × Value → Option (List String)
  | (name, .table entries) => (entries.mapM writeEntry?).map (("[" ++ name ++ "]") :: ·)
  | _ => none

/-- The text of a table of sections. Between two of them a line is empty. -/
def write? (t : Table) : Option String := do
  let sections ← t.mapM writeSection?
  return String.join (([""].intercalate sections).map (· ++ "\n"))

end Toml
end Fray
