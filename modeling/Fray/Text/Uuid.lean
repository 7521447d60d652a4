import Fray.Ident

/-! The hyphenated text of a value of 128 bits: 32 lowercase hexadecimal digits in groups of 8, 4, 4, 4
    and 12. -/

namespace Fray
namespace Uuid

/-- The digit of a value below 16. -/
def hexDigit (n : Nat) : Char := if n < 10 then Char.ofNat (48 + n) else Char.ofNat (87 + n)

/-- The last `width` hexadecimal digits of `n`, high digits first. -/
def hex : (width : Nat) → (n : Nat) → List Char
  | 0, _ => []
  | width + 1, n => hexDigit (n / Nat.pow 16 width % 16) :: hex width n

theorem length_hex (n : Nat) : ∀ width, (hex width n).length = width
  | 0 => rfl
  | width + 1 => by simp [hex, length_hex n width]

/-- The hyphenated text of `n`. -/
def text (n : Nat) : String :=
  let ds := hex 32 n
  String.ofList <| ds.take 8 ++ '-' :: (ds.drop 8).take 4 ++ '-' :: (ds.drop 12).take 4 ++
    '-' :: (ds.drop 16).take 4 ++ '-' :: ds.drop 20

end Uuid

def EntityId.text (e : EntityId) : String := Uuid.text e.val

def ModifierId.text (m : ModifierId) : String := Uuid.text m.val

end Fray
