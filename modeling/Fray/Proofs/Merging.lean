import Fray.Damage.Step
import Fray.Proofs.Editing

/-! Damage that is merged. Merging is associative and the empty damage is its unit; whether packets are modified before
    they are merged or after is the same. The packet that damage began with is the first that ever came, by its making
    or by a merge, and whatever happens later leaves it as it was. -/

namespace Fray
namespace Damage

section Monoid

variable {α : Type}

theorem merge_assoc (a b c : Damage α) : (a.merge b).merge c = a.merge (b.merge c) := by
  simp only [merge, List.append_assoc, Option.or_assoc, Bool.or_assoc]

theorem empty_merge (a : Damage α) : empty.merge a = a := by
  simp [merge, empty]

theorem merge_empty (a : Damage α) : a.merge empty = a := by
  simp [merge, empty]

end Monoid

variable {α : Type} [Amount α]

omit [Amount α] in
theorem editScope_merge (a b : Damage α) (scope : Scope) (f : Packet α → Packet α) :
    (a.merge b).editScope scope f = (a.editScope scope f).merge (b.editScope scope f) := by
  simp [editScope, merge]

/-! ### The packet that damage began with -/

/-- A change of damage: a step, or another contribution that is folded in. -/
inductive Change (α : Type) where
  | step (step : Step α)
  | merge (other : Damage α)

/-- The packet that a change brings to damage that began with none. -/
def Change.brings : Change α → Option (Packet α)
  | .step _ => none
  | .merge other => other.initial

def change (d : Damage α) : Change α → Damage α
  | .step s => (d.step s).1
  | .merge other => d.merge other

def changes (d : Damage α) (cs : List (Change α)) : Damage α := cs.foldl change d

theorem initial_tryEdit (d : Damage α) (e : Except (Fault α) (Edit α)) : (d.tryEdit e).1.initial = d.initial := by
  unfold tryEdit
  split
  · next d' h =>
    cases e with
    | error fault => simp [Except.bind] at h
    | ok e =>
      obtain ⟨-, rfl⟩ := edit_eq_ok.mp h
      exact d.initial_act e
  · rfl

theorem initial_step (d : Damage α) (s : Step α) : (d.step s).1.initial = d.initial := by
  cases s with
  | edit e => exact d.initial_tryEdit _
  | contribute value element types bonus scale => exact d.initial_tryEdit _
  | packet index s => cases hp : d.packets[index]? <;> simp [step, hp]
  | survey => rfl
  | indicators final => rfl

theorem initial_changes (d : Damage α) (cs : List (Change α)) :
    (d.changes cs).initial = d.initial.or (cs.findSome? Change.brings) := by
  induction cs generalizing d with
  | nil => simp [changes]
  | cons c cs ih =>
    rw [changes, List.foldl_cons, ← changes, ih]
    cases c with
    | step s => simp [change, initial_step, Change.brings, List.findSome?_cons]
    | merge other =>
      cases h : other.initial <;> simp [change, merge, Change.brings, h]

theorem initial_of_new {value : α} {element : Option Element} {types : List DamageType} {d : Damage α}
    (h : Damage.new value element types = .ok d) :
    ∃ p, Packet.new value element types = .ok p ∧ d.initial = some p := by
  obtain ⟨hv, rfl⟩ := new_eq_ok.mp h
  exact ⟨_, Packet.new_eq_ok.mpr ⟨hv, rfl⟩, rfl⟩

/-! ### The laws of merging -/

structure MergeLaws (α : Type) [Amount α] : Prop where
  assoc : ∀ a b c : Damage α, (a.merge b).merge c = a.merge (b.merge c)
  left_unit : ∀ a : Damage α, empty.merge a = a
  right_unit : ∀ a : Damage α, a.merge empty = a
  /-- An accepted modifier is accepted by what is merged and by what it is merged of, to the same end. -/
  distributes : ∀ (a b : Damage α) (scope : Scope) (m : Packet.Modifier α), m.Accepted →
    ∃ a' b', a.edit (m.inScope scope) = .ok a' ∧ b.edit (m.inScope scope) = .ok b' ∧
      (a.merge b).edit (m.inScope scope) = .ok (a'.merge b')
  /-- A modifier reaches the packets of its scope where they stand, and nothing else changes. -/
  reaches : ∀ (d d' : Damage α) (scope : Scope) (m : Packet.Modifier α), d.edit (m.inScope scope) = .ok d' →
    d' = { d with packets := d'.packets } ∧ ∀ i : Nat, d'.packets[i]? =
      d.packets[i]?.map fun p => if scope.reaches p then m.toPacket.act p else p
  /-- Damage that began with a packet keeps it as that was made. -/
  begun : ∀ value element types (d : Damage α), Damage.new value element types = .ok d →
    ∃ p, Packet.new value element types = .ok p ∧ ∀ cs, (d.changes cs).initial = some p
  /-- Damage that began empty has the packet of the first merge that brought one. -/
  brought : ∀ cs : List (Change α), (changes empty cs).initial = cs.findSome? Change.brings
  kept : ∀ (d : Damage α) (cs cs' : List (Change α)) (p : Packet α), (d.changes cs).initial = some p →
    (d.changes (cs ++ cs')).initial = some p

/-- Over any amounts, damage merges by these laws. -/
theorem merge_laws : MergeLaws α where
  assoc := merge_assoc
  left_unit := empty_merge
  right_unit := merge_empty
  distributes a b scope m hm := by
    refine ⟨_, _, Packet.Modifier.edit_inScope.mpr ⟨hm, rfl⟩, Packet.Modifier.edit_inScope.mpr ⟨hm, rfl⟩, ?_⟩
    rw [Packet.Modifier.edit_inScope, editScope_merge]
    exact ⟨hm, rfl⟩
  reaches d d' scope m h := by
    obtain ⟨-, rfl⟩ := Packet.Modifier.edit_inScope.mp h
    exact ⟨rfl, d.packets_editScope scope _⟩
  begun value element types d h := by
    obtain ⟨p, hp, hd⟩ := initial_of_new h
    exact ⟨p, hp, fun cs => by rw [initial_changes, hd, Option.some_or]⟩
  brought cs := by rw [initial_changes, empty, Option.none_or]
  kept d cs cs' p h := by
    rw [changes, List.foldl_append, ← changes, ← changes, initial_changes, h, Option.some_or]

end Damage
end Fray
