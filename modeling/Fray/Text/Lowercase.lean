import Fray.Text.CaseTable

/-! The lower case of a text. One letter becomes one letter with two exceptions: the dotted capital I becomes
    an i and a combining dot, and a capital sigma that ends a word becomes the final sigma. -/

namespace Fray
namespace Text

/-- The lower case letter of a code point; a code point without one is its own. -/
def lowerCode (c : Nat) : Nat :=
  if c < 128 then if 65 ≤ c ∧ c ≤ 90 then c + 32 else c
  else match caseRuns.find? (·.contains c) with
    | some r => (c + r.shift).toNat
    | none => c

/-- The lower case of a character, apart from its place in a word. -/
def lowerChar (c : Char) : List Char :=
  if c = 'İ' then ['i', '\u0307'] else [Char.ofNat (lowerCode c.toNat)]

/-- Reading on from here, a letter with a case comes before anything that is not passed over. -/
def meetsCased (cs : List Char) : Bool :=
  match cs.dropWhile fun c => inRanges passedRanges c.toNat with
  | c :: _ => inRanges casedRanges c.toNat
  | [] => false

/-- Lower case of what follows `before`, which holds the characters read so far, nearest first. -/
def lowerFrom (before : List Char) : List Char → List Char
  | [] => []
  | c :: rest =>
    (if c = 'Σ' then [if meetsCased before && !meetsCased rest then 'ς' else 'σ'] else lowerChar c) ++
      lowerFrom (c :: before) rest

def lower (s : String) : String := String.ofList (lowerFrom [] s.toList)

end Text
end Fray
