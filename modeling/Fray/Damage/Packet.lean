import Fray.Amount
import Fray.Damage.Kind
import Fray.Fault

/-! Packets: the parts of an attack that are scaled apart from each other. A sword hit that carries a fire
    enchantment is one physical packet and one packet of fire. -/

namespace Fray

/-- One contribution to an attack. -/
structure Packet (α : Type) where
  /-- The raw value, before modifiers. -/
  value : α
  types : DamageType → Bool
  element : Option Element
  /-- The sum of the stacking bonuses: `0.2` adds a fifth of the raw value. -/
  bonus : α
  /-- The product of the scales: `1.5` adds half to the final value. -/
  scale : α

namespace Packet

inductive Edit (α : Type) where
  | setValue (value : α)
  | setElement (element : Option Element)
  | add (bonus : α)
  | scale (coefficient : α)

variable {α : Type} [Amount α]

/-- A value is accepted when it is a number that is not negative. -/
def checkValue (value : α) : Except (Fault α) Unit :=
  if 0 ≤ value then .ok () else .error (.negativeDamage value)

/-- A coefficient is refused when it is below zero. -/
def checkCoefficient (coefficient : α) : Except (Fault α) Unit :=
  if coefficient < 0 then .error (.negativeCoefficient coefficient) else .ok ()

/-- A packet that nothing has modified. -/
def new (value : α) (element : Option Element) (types : List DamageType) : Except (Fault α) (Packet α) := do
  checkValue value
  return { value, types := fun t => types.contains t, element, bonus := 0, scale := 1 }

def edit (p : Packet α) : Edit α → Except (Fault α) (Packet α)
  | .setValue value => do
    checkValue value
    return { p with value }
  | .setElement element => .ok { p with element }
  | .add bonus => .ok { p with bonus := p.bonus + bonus }
  | .scale coefficient => do
    checkCoefficient coefficient
    return { p with scale := p.scale * coefficient }

def hasType (p : Packet α) (t : DamageType) : Bool := p.types t

/-- Exactly this element; `none` asks for packets without one. -/
def isElement (p : Packet α) (e : Option Element) : Bool := p.element = e

/-- The types of the packet in their order. -/
def typeList (p : Packet α) : List DamageType := DamageType.all.filter p.types

/-- The value after every modifier. Bonuses below minus one count as minus one. -/
def final (p : Packet α) : α := p.value * Amount.larger (1 + p.bonus) 0 * p.scale

/-- Equality of every part, amounts compared as numbers. -/
def same (p q : Packet α) : Bool :=
  Amount.same p.value q.value && DamageType.all.all (fun t => p.types t == q.types t) &&
    p.element == q.element && Amount.same p.bonus q.bonus && Amount.same p.scale q.scale

/-- The text of a packet: value, bonus and scale, then the types, then the element. -/
def text (num : α → String) (p : Packet α) : String :=
  let types := "/".intercalate (p.typeList.map DamageType.name)
  let element := match p.element with
    | some e => ", element=" ++ e.name
    | none => ""
  "(" ++ num p.value ++ "*" ++ num p.bonus ++ "*" ++ num p.scale ++ ")x" ++ types ++ element

end Packet

end Fray
