import Fray.Modifier.Stats
import Fray.Roster
import Fray.Skill.Cooldown
import Fray.Skill.Modifier

/-! What the engine keeps about one connected entity. -/

namespace Fray

structure Combatant (α : Type) where
  stats : Stats α := {}
  skillModifiers : SkillModifiers α := {}
  cooldowns : Cooldowns := {}
  casting : CastingSet := {}

/-- A released combatant has no modifier, no cooldown and no cast left. -/
instance {α : Type} : EntityState (Combatant α) where
  fresh := {}
  release c :=
    { stats := c.stats.clear, skillModifiers := c.skillModifiers.clear, cooldowns := c.cooldowns.clear,
      casting := c.casting.clear }

end Fray
