import Fray.Equipment

/-! What damage is made of: elements, types of damage, and the causes for which a host deals damage. -/

namespace Fray

/-- The eight elements. An element only tags damage; it scales nothing. -/
inductive Element where
  | fire
  | ice
  | earth
  | wind
  | thunder
  | water
  | darkness
  | lightness
  deriving DecidableEq

/-- How a packet of damage is dealt. -/
inductive DamageType where
  | magic
  | physical
  /-- Dealt with a weapon. -/
  | weapon
  /-- Dealt by a skill. -/
  | skill
  | projectile
  /-- Dealt with a bare hand. -/
  | unarmed
  /-- Dealt over time. -/
  | dot
  deriving DecidableEq

/-- Why a host deals damage. -/
inductive Cause where
  | entityAttack
  | sweepAttack
  | projectile
  | magic
  | dragonBreath
  | poison
  | wither
  | fireTick
  | melting
  | starvation
  | dryOut
  | freeze
  | fire
  | lava
  | hotFloor
  | lightning
  | contact
  | drowning
  | suffocation
  | fall
  | flyIntoWall
  | fallingBlock
  | blockExplosion
  | entityExplosion
  | thorns
  | cramming
  | void
  | suicide
  | custom
  deriving DecidableEq

namespace Element

def all : List Element := [fire, ice, earth, wind, thunder, water, darkness, lightness]

def name : Element → String
  | fire => "Fire"
  | ice => "Ice"
  | earth => "Earth"
  | wind => "Wind"
  | thunder => "Thunder"
  | water => "Water"
  | darkness => "Darkness"
  | lightness => "Lightness"

/-- The glyph shown beside a damage number. -/
def icon : Element → String
  | fire => "🔥"
  | ice => "❄"
  | earth => "🪨"
  | wind => "🌬"
  | thunder => "⚡"
  | water => "💧"
  | darkness => "🌑"
  | lightness => "☀"

theorem mem_all (e : Element) : e ∈ all := by cases e <;> decide

end Element

namespace DamageType

def all : List DamageType := [magic, physical, weapon, skill, projectile, unarmed, dot]

def name : DamageType → String
  | magic => "Magic"
  | physical => "Physical"
  | weapon => "Weapon"
  | skill => "Skill"
  | projectile => "Projectile"
  | unarmed => "Unarmed"
  | dot => "DoT"

theorem mem_all (t : DamageType) : t ∈ all := by cases t <;> decide

end DamageType

namespace Cause

def all : List Cause :=
  [entityAttack, sweepAttack, projectile, magic, dragonBreath, poison, wither, fireTick, melting, starvation, dryOut,
    freeze, fire, lava, hotFloor, lightning, contact, drowning, suffocation, fall, flyIntoWall, fallingBlock,
    blockExplosion, entityExplosion, thorns, cramming, void, suicide, custom]

/-- A living attacker hit the target directly. -/
def isMelee : Cause → Bool
  | entityAttack | sweepAttack => true
  | _ => false

/-- The types that the cause alone implies. -/
def damageTypes : Cause → List DamageType
  | magic | dragonBreath => [.magic]
  | poison | wither => [.magic, .dot]
  | fireTick | melting => [.physical, .dot]
  | starvation | dryOut | freeze => [.dot]
  | projectile => [.physical, .projectile]
  | custom => []
  | _ => [.physical]

/-- The types of a hit dealt with `held` in the attacking hand. -/
def meleeDamageTypes (c : Cause) (held : HeldItem) : List DamageType :=
  if c.isMelee then
    match held with
    | .empty => [.unarmed, .physical]
    | .weapon => [.weapon, .physical]
    | .other => [.physical]
  else c.damageTypes

end Cause

end Fray
