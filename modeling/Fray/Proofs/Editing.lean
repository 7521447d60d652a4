import Fray.Damage.Tally

/-! Every edit of packets and of damage is a check and then an act: the check alone decides whether the edit is
    refused, and the act cannot fail. -/

namespace Fray

variable {α : Type} [Amount α]

namespace Packet

variable {value coefficient : α} {fault : Fault α} {p q : Packet α}

theorem checkValue_eq_ok {u : Unit} : checkValue value = .ok u ↔ 0 ≤ value := by
  unfold checkValue
  split <;> simp [*]

theorem checkValue_eq_error : checkValue value = .error fault ↔ ¬ 0 ≤ value ∧ fault = .negativeDamage value := by
  unfold checkValue
  split <;> simp [*, eq_comm]

theorem checkCoefficient_eq_ok {u : Unit} : checkCoefficient coefficient = .ok u ↔ ¬ coefficient < 0 := by
  unfold checkCoefficient
  split <;> simp [*]

theorem checkCoefficient_eq_error :
    checkCoefficient coefficient = .error fault ↔ coefficient < 0 ∧ fault = .negativeCoefficient coefficient := by
  unfold checkCoefficient
  split <;> simp [*, eq_comm]

/-- A packet that nothing has modified. -/
def plain (value : α) (element : Option Element) (types : List DamageType) : Packet α where
  value
  types := fun t => types.contains t
  element
  bonus := 0
  scale := 1

theorem new_eq (value : α) (element : Option Element) (types : List DamageType) :
    new value element types = (checkValue value).map fun _ => plain value element types := by
  unfold new
  cases checkValue value <;> rfl

def Edit.check : Edit α → Except (Fault α) Unit
  | .setValue value => checkValue value
  | .scale coefficient => checkCoefficient coefficient
  | .setElement _ | .add _ => .ok ()

def Edit.act : Edit α → Packet α → Packet α
  | .setValue value, p => { p with value }
  | .setElement element, p => { p with element }
  | .add bonus, p => { p with bonus := p.bonus + bonus }
  | .scale coefficient, p => { p with scale := p.scale * coefficient }

theorem edit_eq (p : Packet α) (e : Edit α) : p.edit e = e.check.map fun _ => e.act p := by
  cases e with
  | setElement element => rfl
  | add bonus => rfl
  | setValue value =>
    simp only [edit, Edit.check]
    cases checkValue value <;> rfl
  | scale coefficient =>
    simp only [edit, Edit.check]
    cases checkCoefficient coefficient <;> rfl

end Packet

/-! ### Checks and acts -/

theorem map_eq_ok {ε β : Type} {x : Except ε Unit} {f : Unit → β} {b : β} :
    x.map f = .ok b ↔ x = .ok () ∧ b = f () := by
  cases x <;> simp [Except.map, eq_comm]

theorem map_eq_error {ε β : Type} {x : Except ε Unit} {f : Unit → β} {e : ε} : x.map f = .error e ↔ x = .error e := by
  cases x <;> simp [Except.map]

theorem Packet.new_eq_ok {value : α} {element : Option Element} {types : List DamageType} {p : Packet α} :
    Packet.new value element types = .ok p ↔ 0 ≤ value ∧ p = plain value element types := by
  simp [new_eq, map_eq_ok, checkValue_eq_ok]

theorem Packet.edit_eq_ok {p q : Packet α} {e : Edit α} : p.edit e = .ok q ↔ e.check = .ok () ∧ q = e.act p := by
  simp [edit_eq, map_eq_ok]

namespace Damage

variable {d d' : Damage α} {fault : Fault α}

/-- Damage that begins with a packet. -/
def ofPacket (p : Packet α) : Damage α := { (empty : Damage α) with packets := [p], initial := some p }

theorem new_eq (value : α) (element : Option Element) (types : List DamageType) :
    new value element types = (Packet.checkValue value).map fun _ => ofPacket (.plain value element types) := by
  unfold new
  rw [Packet.new_eq]
  cases Packet.checkValue value <;> rfl

theorem new_eq_ok {value : α} {element : Option Element} {types : List DamageType} :
    new value element types = .ok d ↔ 0 ≤ value ∧ d = ofPacket (.plain value element types) := by
  rw [new_eq, map_eq_ok, Packet.checkValue_eq_ok]

def Edit.check (d : Damage α) : Edit α → Except (Fault α) Unit
  | .add value _ _ => Packet.checkValue value
  | .scale _ coefficient => Packet.checkCoefficient coefficient
  | .packet index edit => if index < d.packets.length then edit.check else .ok ()
  | .addPacket _ | .bonus _ _ | .weaponCrit _ | .skillCrit _ | .elementCrit _ => .ok ()

def Edit.act (d : Damage α) : Edit α → Damage α
  | .add value element types => { d with packets := d.packets ++ [.plain value element types] }
  | .addPacket p => { d with packets := d.packets ++ [p] }
  | .bonus scope value => d.editScope scope (Packet.Edit.add value).act
  | .scale scope coefficient => d.editScope scope (Packet.Edit.scale coefficient).act
  | .weaponCrit crit => { d with weaponCrit := crit }
  | .skillCrit crit => { d with skillCrit := crit }
  | .elementCrit e => { d with elementCrits := fun x => x = e || d.elementCrits x }
  | .packet index edit => { d with packets := d.packets.modify index edit.act }

theorem edit_eq (d : Damage α) (e : Edit α) : d.edit e = (e.check d).map fun _ => e.act d := by
  cases e with
  | add value element types =>
    simp only [edit, Edit.check, Packet.new_eq]
    cases Packet.checkValue value <;> rfl
  | scale scope coefficient =>
    simp only [edit, Edit.check]
    cases Packet.checkCoefficient coefficient <;> rfl
  | addPacket p => rfl
  | bonus scope value => rfl
  | weaponCrit crit => rfl
  | skillCrit crit => rfl
  | elementCrit x => rfl
  | packet index e =>
    simp only [edit, Edit.check, Edit.act]
    by_cases h : index < d.packets.length
    · have hset : d.packets.modify index e.act = d.packets.set index (e.act d.packets[index]) :=
        List.ext_getElem (by simp) fun j _ _ => by
          rw [List.getElem_modify, List.getElem_set]
          split
          · next hj => simp [hj]
          · rfl
      rw [List.getElem?_eq_getElem h, if_pos h, hset]
      simp only [Packet.edit_eq]
      cases e.check <;> rfl
    · rw [List.getElem?_eq_none (Nat.le_of_not_lt h), if_neg h, List.modify_eq_self (Nat.le_of_not_lt h)]
      rfl

theorem edit_eq_ok {e : Edit α} : d.edit e = .ok d' ↔ e.check d = .ok () ∧ d' = e.act d := by
  simp [edit_eq, map_eq_ok]

theorem edit_eq_error {e : Edit α} : d.edit e = .error fault ↔ e.check d = .error fault := by
  rw [edit_eq, map_eq_error]

theorem initial_act (d : Damage α) (e : Edit α) : (e.act d).initial = d.initial := by
  cases e <;> rfl

end Damage

/-! ### Modifiers -/

/-- What packets are modified by, each by itself or all that a scope reaches. -/
inductive Packet.Modifier (α : Type) where
  | bonus (value : α)
  | scale (coefficient : α)

namespace Packet.Modifier

def toPacket : Modifier α → Packet.Edit α
  | bonus value => .add value
  | scale coefficient => .scale coefficient

def inScope (scope : Scope) : Modifier α → Damage.Edit α
  | bonus value => .bonus scope value
  | scale coefficient => .scale scope coefficient

def Accepted : Modifier α → Prop
  | bonus _ => True
  | scale coefficient => ¬ coefficient < 0

variable {m : Packet.Modifier α} {scope : Scope} {d d' : Damage α}

theorem edit_inScope : d.edit (m.inScope scope) = .ok d' ↔ m.Accepted ∧ d' = d.editScope scope m.toPacket.act := by
  rw [Damage.edit_eq_ok]
  cases m with
  | bonus value => simp [inScope, Accepted, Damage.Edit.check, Damage.Edit.act, toPacket]
  | scale coefficient =>
    simp [inScope, Accepted, Damage.Edit.check, Damage.Edit.act, toPacket, Packet.checkCoefficient_eq_ok]

end Packet.Modifier

omit [Amount α] in
theorem Damage.packets_editScope (d : Damage α) (scope : Scope) (f : Packet α → Packet α) (i : Nat) :
    (d.editScope scope f).packets[i]? = d.packets[i]?.map fun p => if scope.reaches p then f p else p :=
  List.getElem?_map

end Fray
