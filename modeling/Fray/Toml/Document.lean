import Fray.Toml.Line

/-! The tables of a TOML document. A table is defined once: by a header, by the dotted keys of one table, or
    inline. A table that only lies on the way to others may still be given its header, and dotted keys may go
    on with a table that dotted keys began. -/

namespace Fray
namespace Toml

/-- How a table came to be. -/
inductive Origin where
  /-- By its header. -/
  | header
  /-- On the way of a longer header. -/
  | passed
  /-- On the way of a dotted key. -/
  | dotted
  deriving DecidableEq

/-- A table under construction, or what stands in one. -/
inductive Node where
  | value (v : Value)
  | table (origin : Origin) (entries : List (String × Node))
  /-- An array of tables, each by its entries. -/
  | tables (elements : List (List (String × Node)))

/-- The entries of a table under construction. -/
abbrev Entries := List (String × Node)

namespace Entries

/-- Stores a node in the place of the one with its key, or behind all others. -/
def put (es : Entries) (key : String) (n : Node) : Entries :=
  if es.any fun e => e.1 = key then es.map fun e => if e.1 = key then (key, n) else e else es ++ [(key, n)]

/-- Changes the last table of an array of tables. -/
def changeLast (f : Entries → Option Entries) : List Entries → Option (List Entries)
  | [] => none
  | [es] => (f es).map fun es => [es]
  | es :: rest => (changeLast f rest).map (es :: ·)

/-- Adds a pair of a dotted key. The parts before the last lead through tables that no header began; the table
    that takes the value is one that dotted keys began, or the table that the pair stands in. -/
def insertPair (es : Entries) : List String → Value → Option Entries
  | [], _ => none
  | [k], v => if es.any fun e => e.1 = k then none else some (es ++ [(k, .value v)])
  | k :: path, v =>
    match es.lookup k with
    | none => (insertPair [] path v).map fun inner => es.put k (.table .dotted inner)
    | some (.table origin inner) =>
      if origin = .header ∨ (path.length = 1 ∧ origin ≠ .dotted) then none
      else (insertPair inner path v).map fun inner => es.put k (.table origin inner)
    | some (.tables elements) =>
      if path.length = 1 then none
      else (changeLast (fun inner => insertPair inner path v) elements).map fun els => es.put k (.tables els)
    | some (.value _) => none

def insertPairs (es : Entries) (ps : List Pair) : Option Entries :=
  ps.foldlM (fun es p => es.insertPair p.1 p.2) es

/-- Changes the place that a header names, which is a key among some entries. The parts before the last lead
    through tables, which are made where they are missing, and through the last table of an array of tables. -/
def change (es : Entries) (f : Entries → String → Option Entries) : List String → Option Entries
  | [] => none
  | [k] => f es k
  | k :: path =>
    match es.lookup k with
    | none => (change [] f path).map fun inner => es.put k (.table .passed inner)
    | some (.table origin inner) => (change inner f path).map fun inner => es.put k (.table origin inner)
    | some (.tables elements) =>
      (changeLast (fun inner => change inner f path) elements).map fun els => es.put k (.tables els)
    | some (.value _) => none

/-- Puts the table of a header with its pairs behind all other entries. -/
def openTable (ps : List Pair) (es : Entries) (k : String) : Option Entries :=
  let behind (inner : Entries) : Entries := es.filter (·.1 ≠ k) ++ [(k, .table .header inner)]
  match es.lookup k with
  | none => (insertPairs [] ps).map behind
  | some (.table .passed inner) => (insertPairs inner ps).map behind
  | some _ => none

/-- Adds one more element of an array of tables with its pairs. -/
def openElement (ps : List Pair) (es : Entries) (k : String) : Option Entries :=
  match es.lookup k with
  | none => (insertPairs [] ps).map fun element => es.put k (.tables [element])
  | some (.tables elements) => (insertPairs [] ps).map fun element => es.put k (.tables (elements ++ [element]))
  | some _ => none

end Entries

mutual

/-- The value of a finished node. -/
def Node.toValue : Node → Value
  | .value v => v
  | .table _ entries => .table (Entries.toTable entries)
  | .tables elements => .array (Entries.toTables elements)

def Entries.toTable : Entries → Table
  | [] => []
  | (k, n) :: es => (k, n.toValue) :: Entries.toTable es

def Entries.toTables : List Entries → List Value
  | [] => []
  | es :: rest => .table (Entries.toTable es) :: Entries.toTables rest

end

/-- The pairs up to the next header, and the lines from there on. -/
def leadingPairs : List Line → List Pair × List Line
  | .pair p :: ls => let (ps, rest) := leadingPairs ls; (p :: ps, rest)
  | ls => ([], ls)

theorem length_leadingPairs (ls : List Line) : (leadingPairs ls).2.length ≤ ls.length := by
  induction ls with
  | nil => simp [leadingPairs]
  | cons l ls ih => cases l <;> simp [leadingPairs]; omega

/-- Adds the lines from a header on. -/
def addSections (root : Entries) (ls : List Line) : Option Entries :=
  match ls with
  | [] => some root
  | .pair p :: ls => do addSections (← root.insertPair p.1 p.2) ls
  | .table path :: ls => do
    let root ← root.change (Entries.openTable (leadingPairs ls).1) path
    addSections root (leadingPairs ls).2
  | .element path :: ls => do
    let root ← root.change (Entries.openElement (leadingPairs ls).1) path
    addSections root (leadingPairs ls).2
termination_by ls.length
decreasing_by
  all_goals
    have := length_leadingPairs ls
    simp only [List.length_cons]
    omega

def inlineTable (ps : List Pair) : Option Table := (Entries.insertPairs [] ps).map Entries.toTable

/-- Reads a document; nothing when it is none. A byte order mark at its beginning is skipped. -/
def parse? (text : String) : Option Table := do
  let cs := match text.toList with
    | '\uFEFF' :: cs => cs
    | cs => cs
  let ls ← lines inlineTable (cs.length + 1) cs
  let root ← addSections [] ls
  return Entries.toTable root

end Toml
end Fray
