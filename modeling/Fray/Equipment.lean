/-! Equipment: where a modifier is anchored, why it exists, and which hand it counts for. Whether a modifier
    counts toward a computation of one acting hand is decided by `Hand.admits` alone. -/

namespace Fray

/-- Why a modifier exists. -/
inductive Source where
  | meleeWeapon
  | rangedWeapon
  /-- An item that counts from the off hand only. -/
  | offhandItem
  /-- An item that counts from the main hand only. -/
  | mainhandItem
  /-- An item that counts from either hand. -/
  | handItem
  | armor
  | accessory
  /-- Auras, buffs and whatever no equipment grants. -/
  | other
  /-- Never counts. -/
  | void
  deriving DecidableEq

/-- Where a modifier is anchored. What sits in the slot `other` counts for every hand. -/
inductive Slot where
  | armor
  | accessory
  | mainHand
  | offHand
  | other
  deriving DecidableEq

/-- An acting hand. -/
inductive Hand where
  | main
  | off
  deriving DecidableEq, Inhabited

/-- What an entity holds in a hand. -/
inductive HeldItem where
  | empty
  | weapon
  | other
  deriving DecidableEq

namespace HeldItem

def all : List HeldItem := [empty, weapon, other]

end HeldItem

namespace Source

def all : List Source :=
  [meleeWeapon, rangedWeapon, offhandItem, mainhandItem, handItem, armor, accessory, other, void]

def name : Source → String
  | meleeWeapon => "Melee Weapon"
  | rangedWeapon => "Ranged Weapon"
  | offhandItem => "Off-hand Item"
  | mainhandItem => "Main-hand Item"
  | handItem => "Hand Item"
  | armor => "Armor"
  | accessory => "Accessory"
  | other => "Other"
  | void => "Void"

def isWeapon : Source → Bool
  | meleeWeapon | rangedWeapon => true
  | _ => false

def isEquipment : Source → Bool
  | other | void => false
  | _ => true

def isHandheld : Source → Bool
  | armor | accessory => false
  | s => s.isEquipment

end Source

namespace Slot

def all : List Slot := [armor, accessory, mainHand, offHand, other]

def name : Slot → String
  | armor => "Armor"
  | accessory => "Accessory"
  | mainHand => "Main Hand"
  | offHand => "Off Hand"
  | other => "Other"

def hand? : Slot → Option Hand
  | mainHand => some .main
  | offHand => some .off
  | _ => none

def isHand (s : Slot) : Bool := s.hand?.isSome

end Slot

namespace Hand

def all : List Hand := [main, off]

def slot : Hand → Slot
  | main => .mainHand
  | off => .offHand

def opposite : Hand → Hand
  | main => off
  | off => main

/-- A modifier of source `source` at `slot` counts when acting with `hand`. A weapon counts for the hand that
    holds it only; whatever sits in the slot `other` always counts. -/
def admits (hand : Hand) (source : Source) (slot : Slot) : Bool :=
  if slot = .other then true
  else match source with
    | .void => false
    | .other => true
    | .meleeWeapon | .rangedWeapon => slot = hand.slot
    | .offhandItem => slot = .offHand
    | .mainhandItem => slot = .mainHand
    | .handItem => slot.isHand
    | .armor => slot = .armor
    | .accessory => slot = .accessory

theorem slot_hand? (h : Hand) : h.slot.hand? = some h := by cases h <;> rfl

theorem opposite_opposite (h : Hand) : h.opposite.opposite = h := by cases h <;> rfl

end Hand

end Fray
