import Fray.Toml.Scalar

/-! Writing strings in a TOML document. Of the four kinds of quotes the first that needs no escape is taken:
    double, single, three double, three single; if each needs one, double quotes, of several lines when the
    text has several. -/

namespace Fray
namespace Toml

inductive Quotes where
  | double
  | single
  | threeDouble
  | threeSingle
  deriving DecidableEq

/-- Goes on counting the runs of a character: the longest so far, and the one that comes up to here. -/
def countRun (c : Char) (runs : Nat × Nat) (d : Char) : Nat × Nat :=
  if d = c then (max runs.1 (runs.2 + 1), runs.2 + 1) else (runs.1, 0)

/-- The longest run of a character in a text. -/
def longestRun (c : Char) (cs : List Char) : Nat := (cs.foldl (countRun c) (0, 0)).1

/-- What stands in no string unescaped. -/
def isControl (c : Char) : Bool := c.toNat < 32 && c ≠ '\t' && c ≠ '\n' || c = '\x7f'

/-- The quotes that suit a text. -/
def Quotes.suiting (cs : List Char) : Quotes :=
  let control := cs.any isControl
  let backslash := cs.contains '\\'
  let newline := cs.contains '\n'
  if !control && !backslash && longestRun '"' cs = 0 && !newline then .double
  else if !control && longestRun '\'' cs = 0 && !newline then .single
  else if !control && !backslash && longestRun '"' cs ≤ 2 then .threeDouble
  else if !control && longestRun '\'' cs ≤ 2 then .threeSingle
  else if newline then .threeDouble
  else .double

/-- Four uppercase hexadecimal digits. -/
def hexCode (n : Nat) : List Char :=
  [n / 4096 % 16, n / 256 % 16, n / 16 % 16, n % 16].map fun d =>
    if d < 10 then Char.ofNat (48 + d) else Char.ofNat (55 + d)

/-- A character between double quotes. -/
def escaped (c : Char) : List Char :=
  if c = '\x08' then ['\\', 'b']
  else if c = '\t' then ['\\', 't']
  else if c = '\n' then ['\\', 'n']
  else if c = '\x0c' then ['\\', 'f']
  else if c = '\r' then ['\\', 'r']
  else if c = '\\' then ['\\', '\\']
  else if c.toNat < 32 ∨ c = '\x7f' then '\\' :: 'u' :: hexCode c.toNat
  else [c]

/-- Text between double quotes; `many` tells whether they are three. Of a run of quotes, `run` of which came
    before, two may stand as they are between three. -/
def escapeAll (many : Bool) (run : Nat) : List Char → List Char
  | [] => []
  | c :: cs =>
    if c = '"' then
      if run < (if many then 2 else 0) then '"' :: escapeAll many (run + 1) cs
      else '\\' :: '"' :: escapeAll many 0 cs
    else if many && c = '\n' then '\n' :: escapeAll many 0 cs
    else escaped c ++ escapeAll many 0 cs

/-- A string as it is written. Several lines begin on a line of their own. -/
def quote (s : String) : String :=
  let cs := s.toList
  let gap := if cs.contains '\n' then ['\n'] else []
  let threeDouble := ['"', '"', '"']
  let threeSingle := ['\'', '\'', '\'']
  String.ofList <| match Quotes.suiting cs with
    | .double => '"' :: escapeAll false 0 cs ++ ['"']
    | .single => '\'' :: cs ++ ['\'']
    | .threeDouble => threeDouble ++ gap ++ escapeAll true 0 cs ++ threeDouble
    | .threeSingle => threeSingle ++ gap ++ cs ++ threeSingle

end Toml
end Fray
