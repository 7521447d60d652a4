import Fray.Amount
import Fray.Skill.Ident
import Fray.Tick

/-! Cooldowns, measured in the ticks of the host. -/

namespace Fray

def ticksPerSecond : Nat := 20

/-- A duration in seconds as ticks; a negative duration is none. -/
def ticksOfSeconds {α : Type} [Amount α] (seconds : α) : Nat :=
  Amount.nearest (Amount.larger seconds 0 * Amount.ofNat ticksPerSecond)

/-- The tick at which each skill can be cast again. -/
structure Cooldowns where
  expiries : List (SkillId × Nat) := []

namespace Cooldowns

def expiry? (c : Cooldowns) (skill : SkillId) : Option Nat := c.expiries.lookup skill

def erase (c : Cooldowns) (skill : SkillId) : Cooldowns := ⟨c.expiries.filter fun e => e.1 ≠ skill⟩

/-- Starts a cooldown of `duration` ticks in place of any other; a duration of zero is no cooldown. -/
def put (c : Cooldowns) (skill : SkillId) (now duration : Nat) : Cooldowns :=
  if duration = 0 then c.erase skill else ⟨(skill, Tick.later now duration) :: (c.erase skill).expiries⟩

/-- The skill is off cooldown. An expired entry is dropped on the way. -/
def test (c : Cooldowns) (skill : SkillId) (now : Nat) : Bool × Cooldowns :=
  match c.expiry? skill with
  | some expiry => if now < expiry then (false, c) else (true, c.erase skill)
  | none => (true, c)

/-- The ticks until the skill can be cast again. -/
def remaining (c : Cooldowns) (skill : SkillId) (now : Nat) : Nat := (c.expiry? skill).getD 0 - now

def clear (_ : Cooldowns) : Cooldowns := {}

end Cooldowns

structure CastingSet where
  skills : List SkillId := []

namespace CastingSet

def contains (s : CastingSet) (skill : SkillId) : Bool := s.skills.contains skill

/-- Answers whether the skill was not being cast before. -/
def start (s : CastingSet) (skill : SkillId) : Bool × CastingSet :=
  if s.contains skill then (false, s) else (true, ⟨s.skills ++ [skill]⟩)

/-- Answers whether the skill was being cast. -/
def stop (s : CastingSet) (skill : SkillId) : Bool × CastingSet :=
  (s.contains skill, ⟨s.skills.filter (· ≠ skill)⟩)

def isEmpty (s : CastingSet) : Bool := s.skills.isEmpty

def clear (_ : CastingSet) : CastingSet := {}

end CastingSet

end Fray
