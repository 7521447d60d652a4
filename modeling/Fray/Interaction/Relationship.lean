/-! What one entity may be to another, and what it may try on it. -/

namespace Fray

/-- The social link from a source to a target. -/
inductive Relationship where
  /-- Source and target are one entity. -/
  | selfTarget
  | partyMember
  /-- In the same party. -/
  | partyOther
  | guildAlly
  | guildNeutral
  /-- In an enemy guild. -/
  | guildEnemy
  | friend
  | neutral
  deriving DecidableEq

/-- What a source tries on a target. -/
inductive Interaction where
  /-- A basic attack. -/
  | offenseAction
  | offenseSkill
  /-- Support without a skill, such as trade or a healing item. -/
  | supportAction
  | supportSkill
  deriving DecidableEq

namespace Relationship

def all : List Relationship :=
  [selfTarget, partyMember, partyOther, guildAlly, guildNeutral, guildEnemy, friend, neutral]

/-- The name in a configuration. -/
def configName : Relationship → String
  | selfTarget => "self"
  | partyMember => "party-member"
  | partyOther => "party-other"
  | guildAlly => "guild-ally"
  | guildNeutral => "guild-neutral"
  | guildEnemy => "guild-enemy"
  | friend => "friend"
  | neutral => "neutral"

theorem mem_all (r : Relationship) : r ∈ all := by cases r <;> decide

end Relationship

namespace Interaction

def all : List Interaction := [offenseAction, offenseSkill, supportAction, supportSkill]

def isOffense : Interaction → Bool
  | offenseAction | offenseSkill => true
  | supportAction | supportSkill => false

def isSupport (i : Interaction) : Bool := !i.isOffense

def isSkill : Interaction → Bool
  | offenseSkill | supportSkill => true
  | offenseAction | supportAction => false

def isAction (i : Interaction) : Bool := !i.isSkill

end Interaction

end Fray
