import Fray.Toml.Value

/-! Scalars of a TOML document: strings, numbers, truth values, dates and times. A reader answers what it read
    and the characters behind it, or nothing. -/

namespace Fray
namespace Toml

/-- Reads from the front of the characters. -/
abbrev Reader (β : Type) := List Char → Option (β × List Char)

/-! ### Characters -/

def isBlank (c : Char) : Bool := c = ' ' || c = '\t'

/-- What may stand in a comment, and in a string unless it ends the string or escapes. -/
def isPrintable (c : Char) : Bool := c = '\t' || (' ' ≤ c && c ≤ '~') || '\x80' ≤ c

def skipBlank (cs : List Char) : List Char := cs.dropWhile isBlank

/-- Skips blanks and line ends. -/
def skipBlankLines : List Char → List Char
  | '\r' :: '\n' :: cs => skipBlankLines cs
  | c :: cs => if isBlank c || c = '\n' then skipBlankLines cs else c :: cs
  | [] => []

/-- Reads one character that has to be there. -/
def expect (c : Char) : List Char → Option (List Char)
  | d :: cs => if d = c then some cs else none
  | [] => none

/-! ### Strings -/

def hexValue? (c : Char) : Option Nat :=
  if '0' ≤ c ∧ c ≤ '9' then some (c.toNat - 48)
  else if 'a' ≤ c ∧ c ≤ 'f' then some (c.toNat - 87)
  else if 'A' ≤ c ∧ c ≤ 'F' then some (c.toNat - 55)
  else none

/-- Reads a code point of `width` hexadecimal digits. -/
def codePoint (width : Nat) : Reader Char := fun cs => do
  let ds ← (cs.take width).mapM hexValue?
  let code := ds.foldl (fun n d => 16 * n + d) 0
  if ds.length = width ∧ code.isValidChar then some (Char.ofNat code, cs.drop width) else none

/-- Reads what follows a backslash. -/
def escape : Reader Char
  | 'b' :: cs => some ('\x08', cs)
  | 't' :: cs => some ('\t', cs)
  | 'n' :: cs => some ('\n', cs)
  | 'f' :: cs => some ('\x0c', cs)
  | 'r' :: cs => some ('\r', cs)
  | '"' :: cs => some ('"', cs)
  | '\\' :: cs => some ('\\', cs)
  | 'u' :: cs => codePoint 4 cs
  | 'U' :: cs => codePoint 8 cs
  | _ => none

/-- The rest of a string in double quotes on one line. -/
def basicBody : (fuel : Nat) → Reader (List Char)
  | 0, _ => none
  | _ + 1, '"' :: cs => some ([], cs)
  | fuel + 1, '\\' :: cs => do
    let (c, cs) ← escape cs
    let (s, cs) ← basicBody fuel cs
    return (c :: s, cs)
  | fuel + 1, c :: cs => do
    guard (isPrintable c)
    let (s, cs) ← basicBody fuel cs
    return (c :: s, cs)
  | _ + 1, [] => none

/-- The rest of a string in single quotes on one line. -/
def literalBody : Reader (List Char)
  | '\'' :: cs => some ([], cs)
  | c :: cs => do
    guard (isPrintable c)
    let (s, cs) ← literalBody cs
    return (c :: s, cs)
  | [] => none

/-- A run of quotes inside a string of several lines: up to two belong to the string, three end it, and with
    up to two before them. Answers the quotes of the string, and whether it ends. -/
def quoteRun (n : Nat) : Option (Nat × Bool) :=
  if n < 3 then some (n, false) else if n ≤ 5 then some (n - 3, true) else none

/-- The rest of a string of several lines; `escapes` tells whether a backslash escapes in it. A backslash at the
    end of a line skips to the next text. A line end is kept as one character. -/
def manyLinesBody (quote : Char) (escapes : Bool) : (fuel : Nat) → Reader (List Char)
  | 0, _ => none
  | fuel + 1, cs =>
    match cs with
    | [] => none
    | '\n' :: cs => do
      let (s, cs) ← manyLinesBody quote escapes fuel cs
      return ('\n' :: s, cs)
    | '\r' :: '\n' :: cs => do
      let (s, cs) ← manyLinesBody quote escapes fuel cs
      return ('\n' :: s, cs)
    | c :: rest =>
      if c = quote then do
        let n := (cs.takeWhile (· = quote)).length
        let (kept, ends) ← quoteRun n
        if ends then return (List.replicate kept quote, cs.drop n)
        let (s, cs) ← manyLinesBody quote escapes fuel (cs.drop n)
        return (List.replicate kept quote ++ s, cs)
      else if escapes && c = '\\' then
        match skipBlank rest with
        | '\n' :: cs => manyLinesBody quote escapes fuel (skipBlankLines cs)
        | '\r' :: '\n' :: cs => manyLinesBody quote escapes fuel (skipBlankLines cs)
        | _ => do
          let (e, cs) ← escape rest
          let (s, cs) ← manyLinesBody quote escapes fuel cs
          return (e :: s, cs)
      else do
        guard (isPrintable c)
        let (s, cs) ← manyLinesBody quote escapes fuel rest
        return (c :: s, cs)

/-- A line end right behind the opening quotes does not belong to the string. -/
def skipFirstLineEnd : List Char → List Char
  | '\n' :: cs => cs
  | '\r' :: '\n' :: cs => cs
  | cs => cs

/-- Reads a string in any of the four kinds of quotes. -/
def string : Reader String := fun cs =>
  (match cs with
  | '"' :: '"' :: '"' :: cs => manyLinesBody '"' true (cs.length + 1) (skipFirstLineEnd cs)
  | '"' :: cs => basicBody (cs.length + 1) cs
  | '\'' :: '\'' :: '\'' :: cs => manyLinesBody '\'' false (cs.length + 1) (skipFirstLineEnd cs)
  | '\'' :: cs => literalBody cs
  | _ => none).map fun (s, cs) => (String.ofList s, cs)

/-! ### Numbers -/

/-- The digits that follow a digit; an underscore may stand between two of them. -/
def moreDigits (p : Char → Bool) : List Char → List Char × List Char
  | '_' :: c :: cs =>
    if p c then let (ds, rest) := moreDigits p cs; (c :: ds, rest) else ([], '_' :: c :: cs)
  | c :: cs => if p c then let (ds, rest) := moreDigits p cs; (c :: ds, rest) else ([], c :: cs)
  | [] => ([], [])

/-- Reads digits, at least one. -/
def digits (p : Char → Bool) : Reader (List Char)
  | c :: cs => if p c then let (ds, rest) := moreDigits p cs; some (c :: ds, rest) else none
  | [] => none

/-- Reads a sign, if there is one; answers whether it is a minus. -/
def sign : List Char → Bool × List Char
  | '+' :: cs => (false, cs)
  | '-' :: cs => (true, cs)
  | cs => (false, cs)

/-- Reads a decimal integer. A leading zero stands alone. -/
def decimal (cs : List Char) : Option ((Bool × List Char) × List Char) := do
  let (negative, cs) := sign cs
  match cs with
  | '0' :: cs => return ((negative, ['0']), cs)
  | cs =>
    let (ds, cs) ← digits Char.isDigit cs
    return ((negative, ds), cs)

def valueOf (base : Nat) (ds : List Char) : Nat := ds.foldl (fun n d => base * n + (hexValue? d).getD 0) 0

/-- An integer has 64 bits with a sign. -/
def checkedInteger (i : Int) : Option Int :=
  if -0x8000000000000000 ≤ i ∧ i < 0x8000000000000000 then some i else none

/-- Reads an integer: decimal with a sign, or with the mark of another base and without one. -/
def integer (cs : List Char) : Option (Int × List Char) :=
  let based (base : Nat) (p : Char → Bool) (cs : List Char) : Option (Int × List Char) := do
    let (ds, cs) ← digits p cs
    return (← checkedInteger (valueOf base ds), cs)
  match cs with
  | '0' :: 'x' :: cs => based 16 (fun c => (hexValue? c).isSome) cs
  | '0' :: 'o' :: cs => based 8 (fun c => '0' ≤ c && c ≤ '7') cs
  | '0' :: 'b' :: cs => based 2 (fun c => c = '0' || c = '1') cs
  | cs => do
    let ((negative, ds), cs) ← decimal cs
    let n : Int := valueOf 10 ds
    return (← checkedInteger (if negative then -n else n), cs)

/-- The float nearest to `m * 10 ^ e`. -/
def nearestFloat (negative : Bool) (m : Nat) (e : Int) : Float :=
  let size : Int := (Nat.toDigits 10 m).length
  let x :=
    if m = 0 ∨ e + size < -400 then 0.0
    else if 400 < e + size then 1.0 / 0.0
    else Float.ofScientific m (e < 0) e.natAbs
  if negative then -x else x

/-- Reads the exponent of a float. -/
def exponent (cs : List Char) : Option (Int × List Char) :=
  match cs with
  | c :: cs => do
    guard (c = 'e' || c = 'E')
    let (negative, cs) := sign cs
    let (ds, cs) ← digits Char.isDigit cs
    let n : Int := valueOf 10 ds
    return (if negative then -n else n, cs)
  | [] => none

/-- Reads a number with a fraction or an exponent. A number above every float is refused. -/
def number (cs : List Char) : Option (Float × List Char) := do
  let ((negative, whole), cs) ← decimal cs
  let (fraction, e, cs) ← match exponent cs with
    | some (e, cs) => some ([], e, cs)
    | none => do
      let cs ← expect '.' cs
      let (fraction, cs) ← digits Char.isDigit cs
      match exponent cs with
      | some (e, cs) => some (fraction, e, cs)
      | none => some (fraction, 0, cs)
  let x := nearestFloat negative (valueOf 10 (whole ++ fraction)) (e - fraction.length)
  if x == 1.0 / 0.0 then none else some (x, cs)

/-- Reads an infinity or what is no number. -/
def specialNumber (cs : List Char) : Option (Float × List Char) :=
  let (negative, cs) := sign cs
  match cs with
  | 'i' :: 'n' :: 'f' :: cs => some (if negative then -(1.0 / 0.0) else 1.0 / 0.0, cs)
  | 'n' :: 'a' :: 'n' :: cs => some (0.0 / 0.0, cs)
  | _ => none

/-! ### Dates and times -/

/-- Reads a number of exactly `width` digits between `low` and `high`. -/
def fixedNumber (width low high : Nat) : Reader Nat := fun cs =>
  let ds := cs.take width
  let n := valueOf 10 ds
  if ds.length = width ∧ ds.all Char.isDigit ∧ low ≤ n ∧ n ≤ high then some (n, cs.drop width) else none

def daysIn (year month : Nat) : Nat :=
  if month = 2 then if year % 4 = 0 ∧ (year % 100 ≠ 0 ∨ year % 400 = 0) then 29 else 28
  else if month = 4 ∨ month = 6 ∨ month = 9 ∨ month = 11 then 30
  else 31

/-- Reads past a date. -/
def date (cs : List Char) : Option (List Char) := do
  let (year, cs) ← fixedNumber 4 0 9999 cs
  let (month, cs) ← fixedNumber 2 1 12 (← expect '-' cs)
  let (_, cs) ← fixedNumber 2 1 (daysIn year month) (← expect '-' cs)
  return cs

/-- Reads past a time of day. A minute may have a leap second. -/
def time (cs : List Char) : Option (List Char) := do
  let (_, cs) ← fixedNumber 2 0 23 cs
  let (_, cs) ← fixedNumber 2 0 59 (← expect ':' cs)
  let (_, cs) ← fixedNumber 2 0 60 (← expect ':' cs)
  match cs with
  | '.' :: d :: rest => if d.isDigit then return rest.dropWhile Char.isDigit else return cs
  | _ => return cs

/-- Reads past the offset of a time, if there is one. -/
def offset (cs : List Char) : List Char :=
  let distance (cs : List Char) : Option (List Char) := do
    let (_, cs) ← fixedNumber 2 0 23 cs
    let (_, cs) ← fixedNumber 2 0 59 (← expect ':' cs)
    return cs
  match cs with
  | 'Z' :: rest | 'z' :: rest => rest
  | '+' :: rest | '-' :: rest => (distance rest).getD cs
  | _ => cs

/-- Reads a date, a time, or both with or without an offset; answers it as it is written. -/
def datetime : Reader String := fun cs => do
  let rest ← (match date cs with
    | some rest =>
      match rest with
      | c :: after =>
        if c = 'T' || c = 't' || c = ' ' then
          match time after with
          | some rest => some (offset rest)
          | none => some rest
        else some rest
      | [] => some []
    | none => time cs)
  return (String.ofList (cs.take (cs.length - rest.length)), rest)

/-! ### Scalars -/

/-- Reads any value that holds no other value. -/
def scalar : Reader Value := fun cs =>
  match cs with
  | 't' :: 'r' :: 'u' :: 'e' :: cs => some (.boolean true, cs)
  | 'f' :: 'a' :: 'l' :: 's' :: 'e' :: cs => some (.boolean false, cs)
  | c :: _ =>
    if c = '"' || c = '\'' then (string cs).map fun (s, cs) => (.string s, cs)
    else if c.isDigit || c = '+' || c = '-' then
      match datetime cs with
      | some (d, cs) => some (.datetime d, cs)
      | none =>
        match number cs with
        | some (x, cs) => some (.float x, cs)
        | none =>
          match specialNumber cs with
          | some (x, cs) => some (.float x, cs)
          | none => (integer cs).map fun (i, cs) => (.integer i, cs)
    else (specialNumber cs).map fun (x, cs) => (.float x, cs)
  | [] => none

end Toml
end Fray
