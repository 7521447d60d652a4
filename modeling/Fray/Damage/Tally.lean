import Fray.Damage.Packet

/-! The damage of one attack: its packets in the order of their contribution, and which crits were applied.
    A crit flag records that a multiplier was applied elsewhere; it changes no number here. -/

namespace Fray

structure Damage (α : Type) where
  packets : List (Packet α)
  /-- The packet that the damage began with, as it was then. -/
  initial : Option (Packet α)
  weaponCrit : Bool
  skillCrit : Bool
  elementCrits : Element → Bool

/-- Which packets a modifier reaches. -/
inductive Scope where
  | all
  | type (t : DamageType)
  /-- The packets of exactly this element, or those without one. -/
  | element (e : Option Element)

namespace Scope

variable {α : Type} [Amount α]

def reaches (s : Scope) (p : Packet α) : Bool :=
  match s with
  | all => true
  | type t => p.hasType t
  | element e => p.isElement e

end Scope

namespace Damage

/-- A change of the damage of one attack. -/
inductive Edit (α : Type) where
  | add (value : α) (element : Option Element) (types : List DamageType)
  /-- Appends a packet that was modified before. -/
  | addPacket (packet : Packet α)
  | bonus (scope : Scope) (value : α)
  | scale (scope : Scope) (coefficient : α)
  | weaponCrit (crit : Bool)
  | skillCrit (crit : Bool)
  | elementCrit (element : Element)
  /-- Edits the packet at an index. An index beyond the packets changes nothing. -/
  | packet (index : Nat) (edit : Packet.Edit α)

variable {α : Type}

def empty : Damage α := ⟨[], none, false, false, fun _ => false⟩

instance : Inhabited (Damage α) := ⟨empty⟩

variable [Amount α]

/-- Damage that begins with one packet. -/
def new (value : α) (element : Option Element) (types : List DamageType) : Except (Fault α) (Damage α) := do
  let p ← Packet.new value element types
  return { packets := [p], initial := some p, weaponCrit := false, skillCrit := false,
           elementCrits := fun _ => false }

def total (d : Damage α) : α := Amount.sum (d.packets.map Packet.final)

/-- The damage dealt, never below the least damage. -/
def dealt (d : Damage α) : α := Amount.larger d.total Amount.leastDamage

/-- The final values of the packets that satisfy `p`, added up. -/
def totalWhere (d : Damage α) (p : Packet α → Bool) : α := Amount.sum ((d.packets.filter p).map Packet.final)

def ofElement (d : Damage α) (e : Option Element) : α := d.totalWhere (·.isElement e)

def ofType (d : Damage α) (t : DamageType) : α := d.totalWhere (·.hasType t)

def hasType (d : Damage α) (t : DamageType) : Bool := d.packets.any (·.hasType t)

def hasElement (d : Damage α) (e : Option Element) : Bool := d.packets.any (·.isElement e)

def types (d : Damage α) : List DamageType := DamageType.all.filter d.hasType

def elements (d : Damage α) : List Element := Element.all.filter fun e => d.hasElement (some e)

/-- The final damage of each element that occurs; packets without an element count nowhere. -/
def elemental (d : Damage α) : List (Element × α) :=
  d.elements.map fun e =>
    (e, ((d.packets.filter (·.isElement (some e))).map Packet.final).foldl (· + ·) 0)

/-- Folds another contribution in: its packets follow, and its crits count too. -/
def merge (d other : Damage α) : Damage α where
  packets := d.packets ++ other.packets
  initial := d.initial.or other.initial
  weaponCrit := d.weaponCrit || other.weaponCrit
  skillCrit := d.skillCrit || other.skillCrit
  elementCrits := fun e => d.elementCrits e || other.elementCrits e

/-- Edits every packet that the scope reaches. -/
def editScope (d : Damage α) (scope : Scope) (edit : Packet α → Packet α) : Damage α :=
  { d with packets := d.packets.map fun p => if scope.reaches p then edit p else p }

/-- An edit succeeds as a whole or leaves the damage as it was: what could refuse is checked before the first
    packet changes. -/
def edit (d : Damage α) : Edit α → Except (Fault α) (Damage α)
  | .add value element types => do
    let p ← Packet.new value element types
    return { d with packets := d.packets ++ [p] }
  | .addPacket p => .ok { d with packets := d.packets ++ [p] }
  | .bonus scope value => .ok (d.editScope scope fun p => { p with bonus := p.bonus + value })
  | .scale scope coefficient => do
    Packet.checkCoefficient coefficient
    return d.editScope scope fun p => { p with scale := p.scale * coefficient }
  | .weaponCrit crit => .ok { d with weaponCrit := crit }
  | .skillCrit crit => .ok { d with skillCrit := crit }
  | .elementCrit e => .ok { d with elementCrits := fun x => x = e || d.elementCrits x }
  | .packet index edit =>
    match d.packets[index]? with
    | none => .ok d
    | some p => do
      let p' ← p.edit edit
      return { d with packets := d.packets.set index p' }

/-- Equality of every part, amounts compared as numbers. -/
def same (d e : Damage α) : Bool :=
  let packets (ps qs : List (Packet α)) := ps.length == qs.length && (ps.zip qs).all fun (p, q) => p.same q
  packets d.packets e.packets && packets d.initial.toList e.initial.toList && d.weaponCrit == e.weaponCrit &&
    d.skillCrit == e.skillCrit && Element.all.all fun x => d.elementCrits x == e.elementCrits x

end Damage

end Fray
