import Fray.Modifier.Map
import Fray.Skill.Ident

/-! Modifiers of skill parameters. The acting hand plays no part here. -/

namespace Fray

/-- Changes one parameter of a set of skills. -/
structure SkillModifier (α : Type) extends Modifier α where
  /-- The skills it reaches, in ascending order. -/
  targets : List SkillId
  parameter : String

instance {α : Type} : IsModifier (SkillModifier α) α := ⟨SkillModifier.toModifier⟩

namespace SkillId

/-- Inserts into an ascending list without repetitions. -/
def insertSorted (x : SkillId) : List SkillId → List SkillId
  | [] => [x]
  | y :: ys => match x.compare y with
    | .lt => x :: y :: ys
    | .eq => y :: ys
    | .gt => y :: insertSorted x ys

/-- The names in ascending order, each once. -/
def sorted (xs : List SkillId) : List SkillId := xs.foldr insertSorted []

end SkillId

namespace SkillModifier

variable {α : Type}

/-- A modifier must reach some skill. -/
def new (m : Modifier α) (targets : List SkillId) (parameter : String) : Except (Fault α) (SkillModifier α) :=
  if targets.isEmpty then .error .noTargets
  else .ok { m with targets := SkillId.sorted targets, parameter }

/-- The same modifier, worth `offset` more. -/
def add [Amount α] (m : SkillModifier α) (offset : α) : SkillModifier α :=
  { m with toModifier := m.toModifier.add offset }

def appliesTo (m : SkillModifier α) (skill : SkillId) (parameter : String) : Bool :=
  m.parameter = parameter && m.targets.contains skill

/-- The text of the number, then the parameter. -/
def text (num : α → String) (m : SkillModifier α) : String := m.toModifier.text num ++ " " ++ m.parameter

end SkillModifier

/-- The skill modifiers of one entity. -/
abbrev SkillModifiers (α : Type) := ModifierMap (SkillModifier α)

/-- The value of a parameter of a skill that starts from `base`. -/
def ModifierMap.parameterValue {α : Type} [Amount α] (s : SkillModifiers α) (skill : SkillId) (base : α)
    (parameter : String) : α :=
  aggregate base s.entries (·.appliesTo skill parameter) (·.value)

end Fray
