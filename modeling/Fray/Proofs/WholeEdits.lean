import Fray.Damage.Step
import Fray.Engine.Resolve
import Fray.Proofs.Action
import Fray.Proofs.Editing

/-! Edits of damage over machine floats are done as a whole or not at all. What is refused is refused for its argument,
    is a negative value, a value that is no number or a negative coefficient, and leaves everything as it was. -/

namespace Fray

/-! ### Scaling in place -/

section InPlace

variable {α : Type} [Amount α]

/-- Scales packets one after the other where they stand. A packet that refuses ends the walk, and what was scaled
    before it stays scaled. -/
def Packet.scaleEach (scope : Scope) (coefficient : α) : List (Packet α) → Except (Fault α) Unit × List (Packet α)
  | [] => (.ok (), [])
  | p :: ps =>
    if scope.reaches p then
      match p.edit (.scale coefficient) with
      | .error fault => (.error fault, p :: ps)
      | .ok q =>
        let (answer, qs) := scaleEach scope coefficient ps
        (answer, q :: qs)
    else
      let (answer, qs) := scaleEach scope coefficient ps
      (answer, p :: qs)

/-- Scales the packets of a scope in place. The coefficient is tried on a packet of its own before the walk begins. -/
def Damage.scaleInPlace (d : Damage α) (scope : Scope) (coefficient : α) : Except (Fault α) Unit × Damage α :=
  match (Packet.new 0 none []).bind fun p => p.edit (.scale coefficient) with
  | .error fault => (.error fault, d)
  | .ok _ =>
    let (answer, packets) := Packet.scaleEach scope coefficient d.packets
    (answer, { d with packets })

/-- What an edit answers and leaves, where the damage that it changes is the damage that stays. -/
def Damage.committed (d : Damage α) : Except (Fault α) (Damage α) → Except (Fault α) Unit × Damage α
  | .error fault => (.error fault, d)
  | .ok d' => (.ok (), d')

variable {scope : Scope} {coefficient : α}

/-- A coefficient that one packet takes is taken by every packet, so the walk is not ended before its end. -/
theorem Packet.scaleEach_of_accepted (h : ¬ coefficient < 0) (ps : List (Packet α)) :
    scaleEach scope coefficient ps =
      (.ok (), ps.map fun p => if scope.reaches p then { p with scale := p.scale * coefficient } else p) := by
  have hcheck : (Packet.Edit.scale coefficient).check = .ok () := checkCoefficient_eq_ok.mpr h
  induction ps with
  | nil => rfl
  | cons p ps ih =>
    have hedit : p.edit (.scale coefficient) = .ok { p with scale := p.scale * coefficient } :=
      edit_eq_ok.mpr ⟨hcheck, rfl⟩
    unfold scaleEach
    rw [ih, hedit, List.map_cons]
    split <;> rfl

/-- The packet that the coefficient is tried on refuses exactly what the edit refuses. -/
theorem Damage.scaleInPlace_eq (h : (0 : α) ≤ 0) (d : Damage α) :
    d.scaleInPlace scope coefficient = d.committed (d.edit (.scale scope coefficient)) := by
  have hnew : Packet.new (0 : α) none [] = .ok (.plain 0 none []) := Packet.new_eq_ok.mpr ⟨h, rfl⟩
  simp only [scaleInPlace, hnew, Except.bind]
  rw [Packet.edit_eq, edit_eq, Packet.Edit.check, Edit.check]
  by_cases hc : coefficient < 0
  · rw [Packet.checkCoefficient_eq_error.mpr ⟨hc, rfl⟩]
    rfl
  · rw [Packet.checkCoefficient_eq_ok (u := ()).mpr hc, Packet.scaleEach_of_accepted hc]
    rfl

/-! ### Steps that are refused -/

theorem Packet.step_of_refused {p : Packet α} {s : Packet.Step α} {fault : Fault α}
    (h : (p.step s).2 = .refused fault) : (p.step s).1 = p := by
  cases s with
  | hasType t => rfl
  | isElement e => rfl
  | edit e =>
    cases he : p.edit e with
    | ok q => simp [step, he] at h
    | error fault => simp [step, he]

theorem Damage.tryEdit_of_refused {d : Damage α} {e : Except (Fault α) (Edit α)} {fault : Fault α}
    (h : (d.tryEdit e).2 = .refused fault) : (d.tryEdit e).1 = d := by
  cases he : e.bind d.edit with
  | ok d' => simp [tryEdit, he] at h
  | error fault => simp [tryEdit, he]

theorem Damage.step_of_refused {d : Damage α} {s : Damage.Step α} {fault : Fault α}
    (h : (d.step s).2 = .refused fault) : (d.step s).1 = d := by
  cases s with
  | edit e => exact tryEdit_of_refused h
  | contribute value element types bonus scale => exact tryEdit_of_refused h
  | survey => rfl
  | indicators final => rfl
  | packet index s =>
    cases hp : d.packets[index]? with
    | none => simp [step, hp]
    | some p =>
      have hkept : (p.step s).1 = p := Packet.step_of_refused (by simpa [step, hp] using h)
      obtain ⟨hi, hget⟩ := List.getElem?_eq_some_iff.mp hp
      have hset : d.packets.set index p = d.packets := by
        rw [← hget]
        exact List.set_getElem_self hi
      simp [step, hp, hkept, hset]

end InPlace

/-! ### Machine floats and zero -/

namespace Amount

open Float.Model in
theorem zero_le_unpacked_eq_false (u : UnpackedFloat) :
    (UnpackedFloat.zero .positive).le u = false ↔ u.lt (.zero .positive) = true ∨ u.isNaN = true := by
  cases u with
  | notANumber => decide
  | infinity s => cases s <;> decide
  | zero s => cases s <;> decide
  | finite s m e h =>
    cases s with
    | negative => exact ⟨fun _ => .inl rfl, fun _ => rfl⟩
    | positive => exact ⟨fun hle => absurd hle Bool.noConfusion, fun hn => hn.elim nofun nofun⟩

/-- Zero is at most a float unless the float is below it or no number. -/
theorem not_zero_le_iff {v : Float} : ¬ (0 : Float) ≤ v ↔ v < 0 ∨ v.isNaN = true := by
  have hzero : (0 : Float).toModel.unpack = .zero .positive := by rfl
  have hle : (0 : Float) ≤ v ↔ (Float.Model.UnpackedFloat.zero .positive).le v.toModel.unpack = true := by
    rw [← hzero]
    exact decide_eq_true_iff
  have hlt : v < 0 ↔ v.toModel.unpack.lt (.zero .positive) = true := by
    rw [← hzero]
    exact decide_eq_true_iff
  rw [hle, hlt, Bool.not_eq_true, zero_le_unpacked_eq_false]
  exact Iff.rfl

end Amount

/-! ### What is refused, and what is left then -/

/-- The operation is refused exactly when `p` holds, for one reason, and that is an argument that it does not take. -/
structure RefusedWhen {β : Type} (x : Except (Fault Float) β) (reason : Fault Float) (p : Prop) : Prop where
  iff : ∀ fault, x = .error fault ↔ p ∧ fault = reason
  kind : reason.kind = .invalidArgument

theorem refusedWhen_of_value {β : Type} {x : Except (Fault Float) β} {value : Float}
    (h : ∀ fault, x = .error fault ↔ Packet.checkValue value = .error fault) :
    RefusedWhen x (.negativeDamage value) (value < 0 ∨ value.isNaN = true) where
  iff fault := by
    rw [h, Packet.checkValue_eq_error, ← Amount.not_zero_le_iff]
    exact Iff.rfl
  kind := rfl

theorem refusedWhen_of_coefficient {β : Type} {x : Except (Fault Float) β} {coefficient : Float}
    (h : ∀ fault, x = .error fault ↔ Packet.checkCoefficient coefficient = .error fault) :
    RefusedWhen x (.negativeCoefficient coefficient) (coefficient < 0) where
  iff fault := by
    rw [h, Packet.checkCoefficient_eq_error]
    exact Iff.rfl
  kind := rfl

namespace World

open Act

variable {η : Type} [Host η Float]

theorem run_attack (wielder : Wielder) (target : EntityId) (value : Float) (element : Option Element)
    (types : List DamageType) (w : World Float η) (fault : Fault Float) :
    (answer (attack wielder target value element types).run w = .error fault ↔ Packet.checkValue value = .error fault) ∧
    (answer (attack wielder target value element types).run w = .error fault →
      after (attack wielder target value element types).run w = w) := by
  have hnew := Damage.new_eq value element types
  cases hc : Packet.checkValue value with
  | error fault' =>
    rw [hc] at hnew
    simp [attack, hnew, Except.map]
  | ok u =>
    rw [hc] at hnew
    simp [attack, hnew, Except.map]

omit [Host η Float] in
theorem editAttack_of_refused {r : AttackRef} {e : Damage.Edit Float} {w : World Float η} {fault : Fault Float}
    (h : answer (editAttack r e).run w = .error fault) : after (editAttack r e).run w = w := by
  cases he : (w.windows.attack r).damage.edit e with
  | ok d => simp [editAttack, he] at h
  | error fault => simp [editAttack, he]

end World

/-- When the operations on damage are refused, and that they are done as a whole or not at all. -/
structure Damage.Whole (η : Type) [Host η Float] : Prop where
  newPacket : ∀ value element types,
    RefusedWhen (Packet.new value element types) (.negativeDamage value) (value < 0 ∨ value.isNaN = true)
  new : ∀ value element types,
    RefusedWhen (Damage.new value element types) (.negativeDamage value) (value < 0 ∨ value.isNaN = true)
  add : ∀ (d : Damage Float) value element types,
    RefusedWhen (d.edit (.add value element types)) (.negativeDamage value) (value < 0 ∨ value.isNaN = true)
  setValue : ∀ (p : Packet Float) value,
    RefusedWhen (p.edit (.setValue value)) (.negativeDamage value) (value < 0 ∨ value.isNaN = true)
  scalePacket : ∀ (p : Packet Float) coefficient,
    RefusedWhen (p.edit (.scale coefficient)) (.negativeCoefficient coefficient) (coefficient < 0)
  /-- Whether any packet is in the scope does not matter. -/
  scale : ∀ (d : Damage Float) scope coefficient,
    RefusedWhen (d.edit (.scale scope coefficient)) (.negativeCoefficient coefficient) (coefficient < 0)
  /-- Scaling packet after packet in place leaves what the edit gives, or everything as it was. -/
  inPlace : ∀ (d : Damage Float) scope coefficient,
    d.scaleInPlace scope coefficient = d.committed (d.edit (.scale scope coefficient))
  scaled : ∀ (d d' : Damage Float) scope coefficient, d.edit (.scale scope coefficient) = .ok d' →
    d' = { d with packets := d'.packets } ∧ ∀ i : Nat, d'.packets[i]? =
      d.packets[i]?.map fun p => if scope.reaches p then { p with scale := p.scale * coefficient } else p
  keptPacket : ∀ (p : Packet Float) (s : Packet.Step Float) fault, (p.step s).2 = .refused fault → (p.step s).1 = p
  kept : ∀ (d : Damage Float) (s : Damage.Step Float) fault, (d.step s).2 = .refused fault → (d.step s).1 = d
  keptAttack : ∀ (w : World Float η) r e fault, Act.answer (World.editAttack r e).run w = .error fault →
    Act.after (World.editAttack r e).run w = w
  attack : ∀ (w : World Float η) wielder target value element types,
    RefusedWhen (Act.answer (World.attack wielder target value element types).run w) (.negativeDamage value)
      (value < 0 ∨ value.isNaN = true)
  /-- An attack that is refused opens no window, joins none and drops none. -/
  attackKept : ∀ (w : World Float η) wielder target value element types fault,
    Act.answer (World.attack wielder target value element types).run w = .error fault →
    Act.after (World.attack wielder target value element types).run w = w

theorem Damage.edits_whole (η : Type) [Host η Float] : Whole η where
  newPacket value element types := refusedWhen_of_value fun fault => by rw [Packet.new_eq, map_eq_error]
  new value element types := refusedWhen_of_value fun fault => by rw [Damage.new_eq, map_eq_error]
  add d value element types := refusedWhen_of_value fun fault => Damage.edit_eq_error
  setValue p value := refusedWhen_of_value fun fault => by rw [Packet.edit_eq, map_eq_error, Packet.Edit.check]
  scalePacket p coefficient :=
    refusedWhen_of_coefficient fun fault => by rw [Packet.edit_eq, map_eq_error, Packet.Edit.check]
  scale d scope coefficient := refusedWhen_of_coefficient fun fault => Damage.edit_eq_error
  inPlace d scope coefficient := Damage.scaleInPlace_eq (by decide) d
  scaled d d' scope coefficient h := by
    obtain ⟨-, rfl⟩ := (Packet.Modifier.edit_inScope (m := .scale coefficient)).mp h
    exact ⟨rfl, d.packets_editScope scope _⟩
  keptPacket p s fault := Packet.step_of_refused
  kept d s fault := Damage.step_of_refused
  keptAttack w r e fault := World.editAttack_of_refused
  attack w wielder target value element types :=
    refusedWhen_of_value fun fault => (World.run_attack wielder target value element types w fault).1
  attackKept w wielder target value element types fault :=
    (World.run_attack wielder target value element types w fault).2

end Fray
