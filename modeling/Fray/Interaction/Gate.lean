import Fray.Host
import Fray.Interaction.Rules

/-! The gate that every interaction between two entities passes. -/

namespace Fray

/-- A veto over interactions; it permits or denies. -/
abbrev Restriction := EntityId → EntityId → Interaction → Bool

/-- Classifies the relationship from a source to a target. -/
abbrev Classifier := EntityId → EntityId → Relationship

structure Gate where
  rules : Rules
  restrictions : List Restriction := []
  classifiers : List Classifier := []

namespace Gate

/-- Every relationship from `source` to `target` is allowed by the rules. -/
def isAllowed (g : Gate) (rules : Rules) (source target : EntityId) (i : Interaction) (pvp : Bool) : Bool :=
  if source = target then rules.isEnabled i .selfTarget pvp
  else g.classifiers.all fun classify => rules.isEnabled i (classify source target) pvp

/-- `source` may do `i` to `target`. Nobody interacts with itself, the dead do not interact, and a target may
    be out of reach; then every restriction is asked, and only a player is protected by the rules. -/
def canInteract {η α : Type} [Host η α] (g : Gate) (host : η) (source target : EntityId) (i : Interaction) :
    Bool :=
  if source = target || !Host.alive host source || !Host.alive host target || !Host.targetable host target then
    false
  else if g.restrictions.any fun permits => !permits source target i then false
  else if Host.player host target then
    let pvp := Host.pvp host target
    if i.isOffense && !pvp then false else g.isAllowed g.rules source target i pvp
  else i.isOffense || g.rules.supportOnMobs

end Gate

end Fray
