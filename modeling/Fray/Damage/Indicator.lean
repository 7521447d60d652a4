import Fray.Damage.Tally
import Fray.Decimal.Fixed

/-! Floating damage numbers. The packets of an applied attack are grouped by whether they are physical and by
    their element; each group is shown as one number. -/

namespace Fray

/-- One number shown above a target. -/
structure Indicator (α : Type) where
  physical : Bool
  element : Option Element
  crit : Bool
  amount : α

/-- What a damage number stands for: the packets that are physical or not, of one element or none. -/
structure DamageGroup where
  physical : Bool
  element : Option Element
  deriving DecidableEq

namespace DamageGroup

variable {α : Type} [Amount α]

def of (p : Packet α) : DamageGroup := ⟨p.hasType .physical, p.element⟩

/-- Every group in its order: not physical first, and within each half no element first. -/
def all : List DamageGroup :=
  [false, true].flatMap fun physical => (none :: Element.all.map some).map fun element => ⟨physical, element⟩

/-- The groups that occur among the packets, in their order. -/
def occurring (d : Damage α) : List DamageGroup := all.filter fun g => d.packets.any fun p => of p = g

/-- The packets of a group, added up. -/
def total (d : Damage α) (g : DamageGroup) : α :=
  ((d.packets.filter fun p => of p = g).map Packet.final).foldl (· + ·) 0

/-- A group is a crit when its side's crit was applied or its element's. -/
def isCrit (d : Damage α) (g : DamageGroup) : Bool :=
  (if g.physical then d.weaponCrit else d.skillCrit) || g.element.any d.elementCrits

end DamageGroup

namespace Indicator

variable {α : Type} [Amount α]

/-- The numbers of an attack whose final damage was `final`. What `final` adds to or takes from the attack's
    own damage is spread evenly over the groups. Damage not above the least damage shows nothing. -/
def ofDamage (d : Damage α) (final : α) : List (Indicator α) :=
  if d.dealt ≤ Amount.leastDamage then []
  else
    let groups := DamageGroup.occurring d
    let share := (final - d.dealt) / Amount.ofNat (max groups.length 1)
    groups.map fun g => ⟨g.physical, g.element, g.isCrit d, g.total d + share⟩

/-- A blade for physical numbers and a star for the others, then the element. -/
def icon (i : Indicator α) : String :=
  (if i.physical then "🗡" else "★") ++ (i.element.map Element.icon).getD ""

/-- The number as it is shown; `num` writes the amount, and a crit is marked. -/
def text (num : α → String) (i : Indicator α) : String :=
  i.icon ++ " " ++ num i.amount ++ if i.crit then "!" else ""

end Indicator

end Fray
