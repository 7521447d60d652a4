import Fray.Toml.Scalar

/-! Dates that are spelled as tables. A table whose first key is the mark stands for the date or time in the text
    under it, wherever a value of any type is asked for; what else the table holds is not looked at. -/

namespace Fray
namespace Toml

/-- The key that marks a table as a date or time. -/
def dateMark : String := "$__toml_private_datetime"

/-- A text is a date, a time, or both with or without an offset, and nothing else. -/
def isDateText (s : String) : Bool := (datetime s.toList).any fun r => r.2.isEmpty

mutual

/-- Reads the marked tables in a value as dates; none when one has no date under its mark. -/
def Value.readMarked : Value → Option Value
  | .array values => (readMarkedValues values).map .array
  | .table ((key, v) :: entries) =>
    if key = dateMark then
      match v with
      | .string text => if isDateText text then some (.datetime text) else none
      | _ => none
    else do return .table ((key, ← v.readMarked) :: (← readMarkedEntries entries))
  | v => some v

def readMarkedValues : List Value → Option (List Value)
  | [] => some []
  | v :: values => do return (← v.readMarked) :: (← readMarkedValues values)

/-- Reads the marked tables among entries as dates. The entries themselves are never a date. -/
def readMarkedEntries : List (String × Value) → Option (List (String × Value))
  | [] => some []
  | (key, v) :: entries => do return (key, ← v.readMarked) :: (← readMarkedEntries entries)

end

end Toml
end Fray
