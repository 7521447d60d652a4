import Fray.Config
import Fray.Interaction.Relationship

/-! Which interactions are allowed between related entities. A configuration holds one truth value for each
    relationship, for offense and support, with PvP on and off; what it leaves out is allowed. -/

namespace Fray

structure Rules where
  /-- Support may target what is no player. -/
  supportOnMobs : Bool
  isEnabled : Interaction → Relationship → (pvp : Bool) → Bool

/-- The place of one truth value of a configuration. -/
structure RuleKey where
  relationship : Relationship
  offensive : Bool
  pvp : Bool
  deriving DecidableEq

namespace RuleKey

/-- The sides of one relationship in the order in which they are read. -/
def sides : List (Bool × Bool) := [(true, true), (false, true), (true, false), (false, false)]

def path (k : RuleKey) : ConfigPath :=
  ["interaction-rules", if k.pvp then "pvp-on" else "pvp-off", if k.offensive then "offense" else "support",
    k.relationship.configName]

/-- The keys of one relationship in the order in which they are read. -/
def ofRelationship (r : Relationship) : List RuleKey := sides.map fun (offensive, pvp) => ⟨r, offensive, pvp⟩

end RuleKey

/-- The truth values of a configuration by their keys. -/
structure RuleMatrix where
  supportOnMobs : Bool
  enabled : RuleKey → Bool

namespace RuleMatrix

def set (m : RuleMatrix) (key : RuleKey) (enabled : Bool) : RuleMatrix :=
  { m with enabled := fun k => if k = key then enabled else m.enabled k }

/-- Reads the four values of a relationship. Offense without PvP only ever targets oneself. -/
def readRelationship (c : Config) (m : RuleMatrix) (r : Relationship) : RuleMatrix :=
  let m := (RuleKey.ofRelationship r).foldl (fun m k => let b := c.bool k.path true; m.set k b) m
  if r = .selfTarget then m else m.set ⟨r, true, false⟩ false

def supportPath : ConfigPath := ["interaction-rules", "support-skills-on-mobs"]

/-- Reads every value. With PvP on, offense against the own party's others and against enemy guilds is allowed
    whatever the configuration says. -/
def load (c : Config) : RuleMatrix :=
  let m := Relationship.all.foldl (readRelationship c) ⟨c.bool supportPath true, fun _ => true⟩
  (m.set ⟨.partyOther, true, true⟩ true).set ⟨.guildEnemy, true, true⟩ true

def rules (m : RuleMatrix) : Rules where
  supportOnMobs := m.supportOnMobs
  isEnabled i r pvp := m.enabled ⟨r, i.isOffense, pvp⟩

end RuleMatrix

namespace Rules

def permissive : Rules := ⟨true, fun _ _ _ => true⟩

def enabledPath : ConfigPath := ["interaction-rules", "enabled"]

def areEnabled (c : Config) : Bool := c.bool enabledPath true

/-- The rules that a configuration describes; everything is allowed where it switches them off. -/
def load (c : Config) : Rules := if areEnabled c then (RuleMatrix.load c).rules else permissive

/-- The paths that are read to load the rules, in order. -/
def consulted (c : Config) : List ConfigPath :=
  enabledPath :: if areEnabled c then
    RuleMatrix.supportPath :: (Relationship.all.flatMap RuleKey.ofRelationship).map RuleKey.path
  else []

end Rules

end Fray
