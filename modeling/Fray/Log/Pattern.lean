import Fray.Text.CharClass

/-! Patterns, which a filter may want the value of a field to match. No record is ever compared with one, so that
    only their grammar is here: which texts are patterns. A pattern is about characters, and then there is no
    letter case and there are no kinds of characters beyond those of brackets; or it is about bytes, and then it
    may not match a part of a character. -/

namespace Fray
namespace Log
namespace Pattern

open Text (isBlank isAlphabetic isAlphanumeric)

/-! ### Modes -/

/-- How a pattern is read. -/
structure Mode where
  ignoreCase : Bool := false
  /-- It is about characters, else about bytes. -/
  unicode : Bool := true
  /-- Blanks and comments between its parts are skipped. -/
  spaced : Bool := false

/-- Skips blanks and comments. A comment begins with a number sign and ends with its line. -/
def skipBlanks : (comment : Bool) → List Char → List Char
  | _, [] => []
  | true, c :: cs => skipBlanks (c ≠ '\n') cs
  | false, c :: cs => if isBlank c then skipBlanks false cs else if c = '#' then skipBlanks true cs else c :: cs

namespace Mode

def skip (m : Mode) (cs : List Char) : List Char := if m.spaced then skipBlanks false cs else cs

/-- The character that comes next. One number sign and the blanks around it are passed over. -/
def peek (m : Mode) (cs : List Char) : Option Char :=
  if m.spaced then
    match cs.dropWhile isBlank with
    | '#' :: cs => (cs.dropWhile isBlank).head?
    | cs => cs.head?
  else cs.head?

/-- Switches a flag; none when there is no such flag. -/
def switch (m : Mode) (on : Bool) : Char → Option Mode
  | 'i' => some { m with ignoreCase := on }
  | 'u' => some { m with unicode := on }
  | 'x' => some { m with spaced := on }
  | 'm' | 's' | 'R' | 'U' => some m
  | _ => none

end Mode

/-- Reads flags up to a colon or a closing parenthesis, which stays. None may come twice, and those after a hyphen are
    off. `seen` holds what was read, nearest first. -/
def flags (seen : List Char) (m : Mode) : List Char → Option (Mode × List Char)
  | [] => none
  | c :: cs =>
    if c = ':' || c = ')' then
      if seen.head? = some '-' || c = ')' && seen.isEmpty then none else some (m, c :: cs)
    else if seen.contains c then none
    else if c = '-' then flags (c :: seen) m cs
    else (m.switch (!seen.contains '-') c).bind fun m => flags (c :: seen) m cs

/-! ### Atoms -/

/-- The smallest parts of a pattern. -/
inductive Atom where
  /-- A character, which may be given as the number of a byte. -/
  | literal (c : Char) (byte : Bool)
  | dot
  /-- The beginning or the end of a text or a line. -/
  | bound
  /-- The beginning or the end of a word, or anywhere else. -/
  | wordBound
  /-- The digits, the blanks or the characters of words, or all others. -/
  | kind (negated : Bool)

namespace Atom

/-- The atom may stand outside of brackets. -/
def standsAlone (m : Mode) : Atom → Bool
  | literal c byte => if m.unicode then !m.ignoreCase else !byte || c.toNat < 128
  | dot => m.unicode
  | bound => true
  | wordBound => !m.unicode
  | kind negated => !m.unicode && !negated

/-- The atom may be a member of a bracket. -/
def isMember (m : Mode) : Atom → Bool
  | literal c _ => if m.unicode then !m.ignoreCase else c.toNat < 128
  | kind negated => !m.unicode && !negated
  | _ => false

end Atom

/-- Reads a number of so many hexadecimal digits, on from `n`. -/
def hexadecimal (m : Mode) : (width n : Nat) → List Char → Option (Nat × List Char)
  | 0, n, cs => some (n, cs)
  | width + 1, n, cs =>
    match m.skip cs with
    | c :: cs =>
      if c.isDigit then hexadecimal m width (16 * n + (c.toNat - 48)) cs
      else if 'a' ≤ c.toLower ∧ c.toLower ≤ 'f' then hexadecimal m width (16 * n + (c.toLower.toNat - 87)) cs
      else none
    | [] => none

/-- Reads the character that has a number of so many hexadecimal digits. -/
def numbered (m : Mode) (width : Nat) (byte : Bool) (cs : List Char) : Option (Atom × List Char) := do
  let (n, cs) ← hexadecimal m width 0 cs
  guard n.isValidChar
  return (.literal (Char.ofNat n) byte, cs)

/-- Reads on after a backslash. -/
def escape (m : Mode) : List Char → Option (Atom × List Char)
  | [] => none
  | c :: cs =>
    match c with
    | 'x' => numbered m 2 true cs
    | 'u' => numbered m 4 false cs
    | 'U' => numbered m 8 false cs
    | 'd' | 's' | 'w' => some (.kind false, cs)
    | 'D' | 'S' | 'W' => some (.kind true, cs)
    | 'A' | 'z' => some (.bound, cs)
    | 'b' | 'B' | '<' | '>' => some (.wordBound, cs)
    | 'a' => some (.literal '\x07' false, cs)
    | 'f' => some (.literal '\x0c' false, cs)
    | 't' => some (.literal '\t' false, cs)
    | 'n' => some (.literal '\n' false, cs)
    | 'r' => some (.literal '\r' false, cs)
    | 'v' => some (.literal '\x0b' false, cs)
    | _ => if c.toNat < 128 ∧ !c.isAlphanum then some (.literal c false, cs) else none

/-! ### Brackets -/

/-- How deep parts nest together: more than one are a level of their own. -/
def together : List Nat → Nat
  | [] => 0
  | [d] => d
  | ds => ds.foldl max 0 + 1

/-- A bracket that is still open. -/
structure Bracket where
  negated : Bool
  /-- There was nothing but hyphens yet, which are members then. -/
  fresh : Bool := true
  /-- How deep the sets before the last operator nest. -/
  left : Option Nat := none
  /-- How deep each member after it nests. -/
  members : List Nat := []

namespace Bracket

def depth (b : Bracket) : Nat :=
  match b.left with
  | none => together b.members
  | some d => max d (together b.members) + 1

/-- The bracket with a member more. -/
def add (b : Bracket) (depth : Nat) : Bracket := { b with fresh := false, members := depth :: b.members }

/-- Begins the right hand of an operator. -/
def operate (b : Bracket) : Bracket := { b with fresh := false, left := some b.depth, members := [] }

end Bracket

/-- The kinds of ASCII characters. -/
def asciiKinds : List String :=
  ["alnum", "alpha", "ascii", "blank", "cntrl", "digit", "graph", "lower", "print", "punct", "space", "upper", "word",
    "xdigit"]

/-- Reads past a hat. -/
def hat : List Char → Bool × List Char
  | '^' :: cs => (true, cs)
  | cs => (false, cs)

/-- Reads a kind of ASCII characters after an opening bracket; answers whether all others are meant. -/
def asciiKind : List Char → Option (Bool × List Char)
  | ':' :: cs =>
    let (negated, cs) := hat cs
    match cs.dropWhile (· ≠ ':') with
    | ':' :: ']' :: rest =>
      if asciiKinds.contains (String.ofList (cs.takeWhile (· ≠ ':'))) then some (negated, rest) else none
    | _ => none
  | _ => none

/-- Reads an atom inside of a bracket. -/
def inner (m : Mode) : List Char → Option (Atom × List Char)
  | '\\' :: cs => escape m cs
  | c :: cs => some (.literal c false, cs)
  | [] => none

/-- Reads past a member of a bracket, or past a range of characters. A hyphen before another one, or before the end
    of the bracket, makes no range. -/
def member (m : Mode) (cs : List Char) : Option (List Char) := do
  let (low, cs) ← inner m cs
  guard (low.isMember m)
  match m.skip cs with
  | '-' :: after =>
    let next := m.peek after
    if next = some ']' ∨ next = some '-' then return '-' :: after
    let (high, cs) ← inner m (m.skip after)
    match low, high with
    | .literal l _, .literal h _ =>
      guard (l ≤ h ∧ high.isMember m)
      return cs
    | _, _ => none
  | cs => return cs

/-- Reads on in the bracket that was opened last, up to the end of the outermost; answers how deep that nests. -/
def brackets (m : Mode) :
    (fuel : Nat) → Bracket → (outer : List Bracket) → List Char → Option (Nat × List Char)
  | 0, _, _, _ => none
  | fuel + 1, b, outer, cs =>
    match m.skip cs with
    | [] => none
    | '[' :: cs =>
      match asciiKind cs with
      | some (negated, cs) => do
        guard (if m.unicode then !m.ignoreCase else !negated)
        brackets m fuel (b.add 0) outer cs
      | none =>
        let (negated, cs) := hat (m.skip cs)
        brackets m fuel { negated } (b :: outer) cs
    | c :: cs =>
      if c = ']' ∧ !(b.fresh && b.members.isEmpty) then do
        guard (!b.negated || m.unicode && (!m.ignoreCase || outer.isEmpty))
        match outer with
        | [] => return (b.depth + 1, cs)
        | p :: outer => brackets m fuel (p.add (b.depth + 1)) outer cs
      else if (c = '-' ∧ b.fresh) ∨ c = ']' then do
        guard ((Atom.literal c false).isMember m)
        brackets m fuel { b with fresh := c = '-', members := 0 :: b.members } outer cs
      else if (c = '&' ∨ c = '-' ∨ c = '~') ∧ cs.head? = some c then brackets m fuel b.operate outer cs.tail
      else do brackets m fuel (b.add 0) outer (← member m (c :: cs))

/-! ### Groups -/

/-- A group that is still open, or the pattern as a whole. -/
structure Group where
  /-- How what follows the group is read. -/
  outside : Mode
  /-- How deep the alternatives before the last bar nest. -/
  alternatives : List Nat := []
  /-- How deep the parts after it nest, nearest first; none for a change of the mode. -/
  parts : List (Option Nat) := []

namespace Group

/-- The depth of the alternative that is being read. -/
def current (g : Group) : Nat := together (g.parts.map (·.getD 0))

def depth (g : Group) : Nat := together (g.current :: g.alternatives)

def add (g : Group) (part : Option Nat) : Group := { g with parts := part :: g.parts }

def bar (g : Group) : Group := { g with alternatives := g.current :: g.alternatives, parts := [] }

/-- Repeats the last part; none when there is nothing to repeat. -/
def repeated? (g : Group) : Option Group :=
  match g.parts with
  | some d :: parts => some { g with parts := some (d + 1) :: parts }
  | _ => none

end Group

/-- A pattern while it is read. -/
structure Reading where
  mode : Mode := {}
  /-- The names of groups so far. -/
  names : List (List Char) := []
  /-- The group that was opened last. -/
  group : Group := { outside := {} }
  outer : List Group := []

namespace Reading

def enter (r : Reading) (mode : Mode) : Reading :=
  { r with mode, group := { outside := r.mode }, outer := r.group :: r.outer }

/-- Opens a group with a name, which no other group has. -/
def enterNamed (r : Reading) (cs : List Char) : Option (Reading × List Char) :=
  let name := cs.takeWhile (· ≠ '>')
  match name, cs.drop name.length with
  | c :: more, '>' :: cs => do
    guard (c = '_' || isAlphabetic c)
    guard (more.all fun c => c = '_' || c = '.' || c = '[' || c = ']' || isAlphanumeric c)
    guard (!r.names.contains name)
    return ({ r.enter r.mode with names := name :: r.names }, cs)
  | _, _ => none

/-- Reads on after an opening parenthesis: a group, or flags for what follows. -/
def enterAny (r : Reading) (cs : List Char) : Option (Reading × List Char) :=
  match r.mode.skip cs with
  | '?' :: 'P' :: '<' :: cs => r.enterNamed cs
  | '?' :: '<' :: cs => r.enterNamed cs
  | '?' :: cs => do
    let (mode, cs) ← flags [] r.mode cs
    match cs with
    | ':' :: cs => return (r.enter mode, cs)
    | cs => return ({ r with mode, group := r.group.add none }, cs.tail)
  | cs => some (r.enter r.mode, cs)

def leave? (r : Reading) : Option Reading :=
  match r.outer with
  | g :: outer => some { r with mode := r.group.outside, group := g.add (some (r.group.depth + 1)), outer }
  | [] => none

def atom? (r : Reading) (a : Atom) : Option Reading :=
  if a.standsAlone r.mode then some { r with group := r.group.add (some 0) } else none

/-- Reads the next part. A brace would begin a number of repetitions, but the field ends where that would. -/
def step (r : Reading) : List Char → Option (Reading × List Char)
  | [] => none
  | c :: cs =>
    match c with
    | '(' => r.enterAny cs
    | ')' => r.leave?.map (·, cs)
    | '|' => some ({ r with group := r.group.bar }, cs)
    | '[' => do
      let (negated, cs) := hat (r.mode.skip cs)
      let (depth, cs) ← brackets r.mode (cs.length + 1) { negated } [] cs
      return ({ r with group := r.group.add (some depth) }, cs)
    | '?' | '*' | '+' => do
      let group ← r.group.repeated?
      return ({ r with group }, if cs.head? = some '?' then cs.tail else cs)
    | '{' => none
    | '\\' => do
      let (a, cs) ← escape r.mode cs
      return (← r.atom? a, cs)
    | '.' => (r.atom? .dot).map (·, cs)
    | '^' | '$' => (r.atom? .bound).map (·, cs)
    | c => (r.atom? (.literal c false)).map (·, cs)

def run : (fuel : Nat) → Reading → List Char → Option Reading
  | 0, _, _ => none
  | fuel + 1, r, cs =>
    match r.mode.skip cs with
    | [] => some r
    | cs => do
      let (r, cs) ← r.step cs
      run fuel r cs

end Reading

/-- The most levels of groups, brackets and repetitions within each other. -/
def depthLimit : Nat := 250

end Pattern

/-- A text is a pattern. -/
def isPattern (cs : List Char) : Bool :=
  (Pattern.Reading.run (cs.length + 1) {} cs).any fun r => r.outer.isEmpty && r.group.depth ≤ Pattern.depthLimit

end Log
end Fray
