import Fray.Log.Pattern
import Fray.Log.Record

/-! Which records are shown. A filter is a list of directives between commas. A directive is a level, or a target,
    a span or a field with a level; of those that reach a record the narrowest decides. -/

namespace Fray
namespace Log

/-- What a directive asks of a field. -/
structure FieldQuery where
  name : String
  /-- The field must have a certain value. -/
  valued : Bool
  deriving DecidableEq

/-- Shows some records up to a verbosity; zero shows none. -/
structure Directive where
  /-- The beginning of the targets that are meant; `none` for all. -/
  target : Option String := none
  /-- The span that the records are in. -/
  span : Option String := none
  /-- The field that the records have. -/
  field : Option FieldQuery := none
  verbosity : Nat
  deriving DecidableEq

structure Filter where
  directives : List Directive
  deriving DecidableEq

/-- Why a text is no filter. -/
inductive FilterFlaw where
  /-- One of its directives is none. -/
  | malformed
  /-- One of its directives would be cut inside of a character. -/
  | torn
  deriving DecidableEq

/-- Everything is shown. -/
def loudest : Nat := 5

/-! ### Parts of a directive -/

/-- A verbosity as a number or by name, in any case of letters; no text is the gravest level alone. -/
def verbosity? (cs : List Char) : Option Nat :=
  let digits := match cs with
    | '+' :: ds => ds
    | ds => ds
  if !digits.isEmpty && digits.all Char.isDigit then
    let n := digits.foldl (fun n d => 10 * n + (d.toNat - 48)) 0
    if n ≤ loudest then some n else none
  else match String.ofList (cs.map Char.toLower) with
    | "" => some 1
    | "off" => some 0
    | "error" => some 1
    | "warn" => some 2
    | "info" => some 3
    | "debug" => some 4
    | "trace" => some 5
    | _ => none

/-- Reads past a sign. -/
def dropSign : List Char → List Char
  | '+' :: cs => cs
  | '-' :: cs => cs
  | cs => cs

/-- A number: an infinity, what is no number, or digits with at most one point among them and at most one exponent
    behind them. -/
def isNumeral (cs : List Char) : Bool :=
  let cs := dropSign cs
  ["inf", "infinity", "nan"].contains (String.ofList (cs.map Char.toLower)) ||
    let whole := cs.takeWhile Char.isDigit
    let cs := cs.drop whole.length
    let (fraction, cs) := match cs with
      | '.' :: cs => (cs.takeWhile Char.isDigit, cs.dropWhile Char.isDigit)
      | cs => ([], cs)
    !(whole.isEmpty && fraction.isEmpty) &&
      match cs with
      | [] => true
      | e :: cs => (e = 'e' || e = 'E') && (let ds := dropSign cs; !ds.isEmpty && ds.all Char.isDigit)

/-- Reads a field, which has a name and may have a value: a number or a pattern. What follows a second equals sign
    is not looked at. -/
def FieldQuery.parse? (cs : List Char) : Option FieldQuery :=
  let name := String.ofList (cs.takeWhile (· ≠ '='))
  match cs, cs.dropWhile (· ≠ '=') with
  | [], _ => none
  | _, [] => some ⟨name, false⟩
  | _, _ :: rest =>
    let value := rest.takeWhile (· ≠ '=')
    if isNumeral value || isPattern value then some ⟨name, true⟩ else none

/-! ### Cutting -/

def bytes (cs : List Char) : Nat := (String.ofList cs).utf8ByteSize

/-- Cuts a text after a number of bytes. -/
def splitBytes : Nat → List Char → Except FilterFlaw (List Char × List Char)
  | 0, cs => .ok ([], cs)
  | _ + 1, [] => .ok ([], [])
  | n + 1, c :: cs =>
    if c.utf8Size ≤ n + 1 then (splitBytes (n + 1 - c.utf8Size) cs).map fun p => (c :: p.1, p.2) else .error .torn

/-- A directive as it stands between the commas. Its marks are sought in the body, which has no blanks around it,
    but its parts are cut from the whole, at as many bytes from the beginning. -/
structure Piece where
  whole : List Char
  body : List Char

namespace Piece

def ofText (cs : List Char) : Piece := ⟨cs, Text.trim cs⟩

/-- The part from where `rest` of the body is left. -/
def since (p : Piece) (rest : List Char) : Except FilterFlaw (List Char) :=
  (splitBytes (bytes p.body - bytes rest) p.whole).map (·.2)

/-- The part from where `first` of the body is left to where `last` of it is. -/
def between (p : Piece) (first last : List Char) : Except FilterFlaw String := do
  let (_, part) ← splitBytes (bytes p.body - bytes first) p.whole
  return String.ofList (← splitBytes (bytes first - bytes last) part).1

/-- The verbosity that the part from where `rest` is left asks for; no text asks for all. -/
def level (p : Piece) (rest : List Char) : Except FilterFlaw Nat := do
  match ← p.since rest with
  | [] => return loudest
  | cs =>
    match verbosity? cs with
    | some v => return v
    | none => throw .malformed

end Piece

/-! ### Directives -/

namespace Directive

/-- The directive with the level at the end of a piece; without one it shows everything. -/
def withLevel (d : Directive) (p : Piece) : List Char → Except FilterFlaw Directive
  | [] => return { d with verbosity := loudest }
  | '=' :: cs => return { d with verbosity := ← p.level cs }
  | _ => throw .malformed

/-- Reads on in a bracket: the span, the field in braces, or both. -/
def bracket (target : Option String) (p : Piece) (cs : List Char) : Except FilterFlaw Directive := do
  let d : Directive := { target, verbosity := loudest }
  match cs.dropWhile fun c => c ≠ ']' && c ≠ '{' with
  | ']' :: rest => withLevel { d with span := some (← p.between cs (']' :: rest)) } p rest
  | '{' :: fs =>
    let span ← p.between cs ('{' :: fs)
    match fs.dropWhile (· ≠ '}') with
    | [] => throw .malformed
    | _ :: rest =>
      match FieldQuery.parse? (← p.between fs ('}' :: rest)).toList, rest with
      | some field, ']' :: rest =>
        withLevel { d with span := if span = "" then none else some span, field := some field } p rest
      | _, _ => throw .malformed
  | _ => throw .malformed

/-- Reads one directive. A target without a level shows everything. -/
def parse (cs : List Char) : Except FilterFlaw Directive := do
  let p := Piece.ofText cs
  match p.body with
  | [] => throw .malformed
  | '[' :: rest => bracket none p rest
  | c :: _ =>
    if !(c = '-' || c = ':' || c = '_' || Text.isAlphanumeric c) then throw .malformed
    match p.body.dropWhile fun c => c ≠ '=' && c ≠ '[' with
    | [] =>
      match verbosity? cs with
      | some v => return { verbosity := v }
      | none => return { target := String.ofList cs, verbosity := loudest }
    | mark :: rest =>
      let target ← p.between p.body (mark :: rest)
      if mark = '=' then return { target, verbosity := ← p.level rest } else bracket target p rest

/-- The directive is about a record. No record is in a span, and the values of fields are looked at in spans only. -/
def reaches (d : Directive) (r : Record) : Bool :=
  d.span.isNone && (d.target.all fun t => t.toList.isPrefixOf r.target.toList) &&
    d.field.all fun f => !f.valued && r.fieldNames.contains f.name

/-- How narrow the targets are. -/
def width (d : Directive) : Nat := (d.target.map fun t => t.utf8ByteSize + 1).getD 0

/-- The directive gives way to another that reaches the same record: to narrower targets, then to one with a field,
    then to the later name of a field, last to the one that comes after. -/
def yields (d e : Directive) : Bool :=
  d.width < e.width || d.width = e.width &&
    match d.field, e.field with
    | none, _ => true
    | some _, none => false
    | some f, some g => !(g.name < f.name)

end Directive

/-! ### Filters -/

/-- Cuts at every comma; `part` holds the part so far, nearest character first. -/
def cutCommas (part : List Char) : List Char → List (List Char)
  | [] => [part.reverse]
  | c :: cs => if c = ',' then part.reverse :: cutCommas [] cs else cutCommas (c :: part) cs

namespace Filter

/-- Reads a filter. Between two commas there may be nothing. A filter without any directive shows the gravest
    level. -/
def parse (text : String) : Except FilterFlaw Filter :=
  match (cutCommas [] text.toList).filter (!·.isEmpty) with
  | [] => .ok ⟨[{ verbosity := 1 }]⟩
  | parts => (parts.mapM Directive.parse).map Filter.mk

def ofLevel (l : Level) : Filter := ⟨[{ verbosity := l.verbosity }]⟩

/-- The directive that decides about a record. -/
def deciding (f : Filter) (r : Record) : Option Directive :=
  (f.directives.filter (·.reaches r)).foldl (fun best d => if best.all (·.yields d) then some d else best) none

def shows (f : Filter) (r : Record) : Bool := (f.deciding r).any fun d => r.level.verbosity ≤ d.verbosity

end Filter

end Log
end Fray
