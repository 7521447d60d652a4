import Fray.Text.Lowercase

/-! Names of skills. Any spelling of a name is brought to one form: lower case, with underscores for dashes
    and spaces. -/

namespace Fray

structure SkillId where
  text : String
  deriving DecidableEq, Inhabited

namespace SkillId

/-- Dashes and spaces become underscores. -/
def joinWords (c : Char) : Char := if c = '-' ∨ c = ' ' then '_' else c

/-- The name that a text spells. -/
def ofText (s : String) : SkillId := ⟨(Text.lower s).map joinWords⟩

/-- Names are ordered by the code points of their text. -/
def compare (a b : SkillId) : Ordering := compareOfLessAndEq a.text b.text

end SkillId

end Fray
