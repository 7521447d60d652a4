import Fray.Toml.Scalar

/-! The lines of a TOML document: pairs, and the headers of tables and of the elements of arrays of tables. -/

namespace Fray
namespace Toml

/-- A pair of a dotted key and a value. -/
abbrev Pair := List String × Value

/-- Values nest less deep than this, and a dotted key has fewer parts. -/
def depthLimit : Nat := 80

/-! ### Keys -/

def isBareKey (c : Char) : Bool := c.isAlphanum || c = '_' || c = '-'

/-- Reads one part of a key: bare, or a string on one line. -/
def keyPart : Reader String := fun cs =>
  match cs with
  | '"' :: rest => (basicBody (rest.length + 1) rest).map fun (s, cs) => (String.ofList s, cs)
  | '\'' :: rest => (literalBody rest).map fun (s, cs) => (String.ofList s, cs)
  | _ =>
    let s := cs.takeWhile isBareKey
    if s.isEmpty then none else some (String.ofList s, cs.dropWhile isBareKey)

/-- Reads the parts of a dotted key, with blanks around them. -/
def keyParts : (fuel : Nat) → Reader (List String)
  | 0, _ => none
  | fuel + 1, cs => do
    let (k, cs) ← keyPart (skipBlank cs)
    match skipBlank cs with
    | '.' :: cs =>
      let (ks, cs) ← keyParts fuel cs
      return (k :: ks, cs)
    | cs => return ([k], cs)

def key : Reader (List String) := fun cs => do
  let (ks, cs) ← keyParts (cs.length + 1) cs
  guard (ks.length < depthLimit)
  return (ks, cs)

/-! ### Values -/

/-- Skips blanks, line ends and comments; `inComment` tells where the characters begin. -/
def skipLines (inComment : Bool) : List Char → Option (List Char)
  | '\r' :: '\n' :: cs => skipLines false cs
  | '\n' :: cs => skipLines false cs
  | c :: cs =>
    if inComment then if isPrintable c then skipLines true cs else none
    else if isBlank c then skipLines false cs
    else if c = '#' then skipLines true cs
    else some (c :: cs)
  | [] => if inComment then none else some []

/-- The rest of an array. A comma may follow the last value. -/
def arrayItems (value : Reader Value) : (fuel : Nat) → Reader (List Value)
  | 0, _ => none
  | fuel + 1, cs => do
    match ← skipLines false cs with
    | ']' :: cs => return ([], cs)
    | cs =>
      let (v, cs) ← value cs
      match ← skipLines false cs with
      | ',' :: cs =>
        let (vs, cs) ← arrayItems value fuel cs
        return (v :: vs, cs)
      | ']' :: cs => return ([v], cs)
      | _ => none

def pair (value : Reader Value) : Reader Pair := fun cs => do
  let (ks, cs) ← key cs
  let cs ← expect '=' cs
  let (v, cs) ← value (skipBlank cs)
  return ((ks, v), skipBlank cs)

/-- The pairs of an inline table, at least one; no comma follows the last. -/
def inlinePairs (value : Reader Value) : (fuel : Nat) → Reader (List Pair)
  | 0, _ => none
  | fuel + 1, cs => do
    let (p, cs) ← pair value cs
    match cs with
    | ',' :: cs =>
      let (ps, cs) ← inlinePairs value fuel cs
      return (p :: ps, cs)
    | '}' :: cs => return ([p], cs)
    | _ => none

/-- Reads a value that nests at most `depth` deep. `inline` builds a table from its pairs. -/
def value (inline : List Pair → Option Table) : (depth : Nat) → Reader Value
  | 0, cs => scalar cs
  | depth + 1, cs =>
    match cs with
    | '[' :: cs => do
      let (vs, cs) ← arrayItems (value inline depth) (cs.length + 1) cs
      return (.array vs, cs)
    | '{' :: cs =>
      match skipBlank cs with
      | '}' :: cs => some (.table [], cs)
      | cs => do
        let (ps, cs) ← inlinePairs (value inline depth) (cs.length + 1) cs
        return (.table (← inline ps), cs)
    | cs => scalar cs

/-! ### Lines -/

inductive Line where
  | pair (p : Pair)
  /-- The header of a table. -/
  | table (path : List String)
  /-- The header of one more element of an array of tables. -/
  | element (path : List String)

/-- Reads blanks, a comment if there is one, and the end of the line. -/
def lineEnd (cs : List Char) : Option (List Char) :=
  let cs := match skipBlank cs with
    | '#' :: cs => cs.dropWhile isPrintable
    | cs => cs
  match cs with
  | [] => some []
  | '\n' :: cs => some cs
  | '\r' :: '\n' :: cs => some cs
  | _ => none

/-- Reads the path of a header. -/
def header (cs : List Char) : Option (List String × List Char) := do
  let (path, cs) ← key cs
  return (path, ← expect ']' cs)

def lines (inline : List Pair → Option Table) : (fuel : Nat) → List Char → Option (List Line)
  | 0, _ => none
  | fuel + 1, cs =>
    match skipBlank cs with
    | [] => some []
    | '\n' :: cs => lines inline fuel cs
    | '\r' :: '\n' :: cs => lines inline fuel cs
    | '#' :: cs => do lines inline fuel (← lineEnd ('#' :: cs))
    | '[' :: '[' :: cs => do
      let (path, cs) ← header cs
      let cs ← expect ']' cs
      return .element path :: (← lines inline fuel (← lineEnd cs))
    | '[' :: cs => do
      let (path, cs) ← header cs
      return .table path :: (← lines inline fuel (← lineEnd cs))
    | cs => do
      let (p, cs) ← pair (value inline (depthLimit - 1)) cs
      return .pair p :: (← lines inline fuel (← lineEnd cs))

end Toml
end Fray
