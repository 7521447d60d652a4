import Mathlib.Data.List.Nodup
import Fray.Damage.Window
import Fray.Proofs.Association

/-! The laws of the windows: what each operation leaves open, and which attack stands behind a key. Dropping,
    taking out and closing touch no attack; a contribution touches the attack of its own key only. -/

namespace Fray
namespace Windows

variable {α : Type} (w : Windows α)

@[simp] theorem attacks_expire (t : Nat) : (w.expire t).attacks = w.attacks := rfl

@[simp] theorem attack_expire (t : Nat) (r : AttackRef) : (w.expire t).attack r = w.attack r := rfl

@[simp] theorem attack_remove (k : WindowKey) (r : AttackRef) : (w.remove k).attack r = w.attack r := rfl

@[simp] theorem attack_close (k : WindowKey) (r s : AttackRef) : (w.close k r).attack s = w.attack s := by
  unfold close
  split <;> rfl

theorem attack_update {r : AttackRef} (h : r < w.attacks.size) (f : Attack α → Attack α) :
    (w.update r f).attack r = f (w.attack r) := by
  simp [attack, update, h, Array.getElem_modify]

theorem attack_update_of_ne {r s : AttackRef} (h : s ≠ r) (f : Attack α → Attack α) :
    (w.update r f).attack s = w.attack s := by
  simp [attack, update, Array.getElem?_modify, Ne.symm h]

theorem update_congr {r : AttackRef} {f g : Attack α → Attack α} (h : f (w.attack r) = g (w.attack r)) :
    w.update r f = w.update r g := by
  unfold update
  congr 1
  refine Array.ext (by simp) fun i hi _ => ?_
  have hi : i < w.attacks.size := by simpa using hi
  simp only [Array.getElem_modify]
  split
  · next hr =>
    subst hr
    simpa [attack, hi] using h
  · rfl

theorem find?_expire (t : Nat) (k : WindowKey) :
    (w.expire t).find? k = if t ≤ k.tick then w.find? k else none := by
  simpa [find?, expire] using lookup_filter_fst (fun k : WindowKey => decide (t ≤ k.tick)) k w.opened

@[simp] theorem find?_expire_tick (k : WindowKey) : (w.expire k.tick).find? k = w.find? k := by
  simp [find?_expire]

theorem find?_remove (j k : WindowKey) : (w.remove j).find? k = if k = j then none else w.find? k :=
  lookup_filter_ne j k w.opened

@[simp] theorem expire_expire (t : Nat) : (w.expire t).expire t = w.expire t := by
  simp [expire]

@[simp] theorem register_expire (k : WindowKey) (a : Attack α) :
    (w.expire k.tick).register k a = w.register k a := by
  simp [register]

theorem close_of_find? {w : Windows α} {k : WindowKey} {r : AttackRef} (h : w.find? k = some r) :
    w.close k r = w.remove k := by
  simp [close, h]

/-- A contribution to an open window is merged into its attack. -/
theorem register_of_some {w : Windows α} {k : WindowKey} {r : AttackRef} (h : w.find? k = some r) (a : Attack α) :
    w.register k a = (r, (w.expire k.tick).update r fun b => { b with damage := b.damage.merge a.damage }) := by
  simp [register, h]

/-- A contribution to no open window opens one. -/
theorem register_of_none {w : Windows α} {k : WindowKey} (h : w.find? k = none) (a : Attack α) :
    w.register k a =
      (w.attacks.size, ⟨w.attacks.push a, (w.expire k.tick).opened ++ [(k, w.attacks.size)]⟩) := by
  simp [register, h]

@[simp] theorem find?_register (k : WindowKey) (a : Attack α) :
    (w.register k a).2.find? k = some (w.register k a).1 := by
  cases h : w.find? k with
  | some r =>
    rw [register_of_some h]
    exact (w.find?_expire_tick k).trans h
  | none =>
    rw [register_of_none h]
    have hk : (w.expire k.tick).opened.lookup k = none := (w.find?_expire_tick k).trans h
    simp [find?, List.lookup_append, hk]

/-- A contribution leaves every window open that is of no earlier tick. -/
theorem find?_register_of_some {w : Windows α} {j k : WindowKey} {r : AttackRef} (h : w.find? k = some r)
    (ht : j.tick ≤ k.tick) (a : Attack α) : (w.register j a).2.find? k = some r := by
  have hk : (w.expire j.tick).find? k = some r := by simp [find?_expire, ht, h]
  cases hj : w.find? j with
  | some s =>
    rw [register_of_some hj]
    exact hk
  | none =>
    rw [register_of_none hj]
    simp only [find?] at hk
    simp [find?, List.lookup_append, hk]

theorem attack_register_of_none {w : Windows α} {k : WindowKey} (h : w.find? k = none) (a : Attack α) :
    (w.register k a).2.attack (w.register k a).1 = a := by
  rw [register_of_none h]
  simp [attack]

theorem remove_of_none {w : Windows α} {k : WindowKey} (h : w.find? k = none) : w.remove k = w := by
  have hne : ∀ o ∈ w.opened, o.1 ≠ k := fun o ho => by
    have hk : k ≠ o.1 := by simpa using List.lookup_eq_none_iff.mp h o ho
    exact hk.symm
  have hall : (w.opened.filter fun o => o.1 ≠ k) = w.opened :=
    List.filter_eq_self.mpr fun o ho => decide_eq_true (hne o ho)
  unfold remove
  rw [hall]

theorem mem_of_find? {w : Windows α} {k : WindowKey} {r : AttackRef} (h : w.find? k = some r) :
    (k, r) ∈ w.opened := by
  obtain ⟨before, behind, h, -⟩ := List.lookup_eq_some_iff.mp h
  simp [h]

/-! ### Windows that can be reached -/

/-- Windows that contributions, edits and closings lead to from the start. -/
inductive Reachable : Windows α → Prop
  | start : Reachable {}
  | expire {w : Windows α} (h : Reachable w) (t : Nat) : Reachable (w.expire t)
  | remove {w : Windows α} (h : Reachable w) (k : WindowKey) : Reachable (w.remove k)
  | close {w : Windows α} (h : Reachable w) (k : WindowKey) (r : AttackRef) : Reachable (w.close k r)
  | update {w : Windows α} (h : Reachable w) (r : AttackRef) (f : Attack α → Attack α) : Reachable (w.update r f)
  | register {w : Windows α} (h : Reachable w) (k : WindowKey) (a : Attack α) : Reachable (w.register k a).2

/-- No key is open twice, no attack stands behind two windows, and every attack was given out. -/
structure Sound (w : Windows α) : Prop where
  keys : (w.opened.map Prod.fst).Nodup
  refs : (w.opened.map Prod.snd).Nodup
  given : ∀ o ∈ w.opened, o.2 < w.attacks.size

namespace Sound

variable {w : Windows α}

theorem start : Sound ({} : Windows α) := ⟨List.nodup_nil, List.nodup_nil, by simp⟩

theorem eq_of_ref_eq (h : w.Sound) {o o' : WindowKey × AttackRef} (ho : o ∈ w.opened) (ho' : o' ∈ w.opened)
    (hr : o.2 = o'.2) : o = o' :=
  List.inj_on_of_nodup_map h.refs ho ho' hr

theorem of_sublist (h : w.Sound) {v : Windows α} (hs : v.opened.Sublist w.opened)
    (ha : w.attacks.size ≤ v.attacks.size) : v.Sound where
  keys := h.keys.sublist (hs.map _)
  refs := h.refs.sublist (hs.map _)
  given o ho := Nat.lt_of_lt_of_le (h.given o (hs.subset ho)) ha

theorem expire (h : w.Sound) (t : Nat) : (w.expire t).Sound := h.of_sublist List.filter_sublist (Nat.le_refl _)

theorem remove (h : w.Sound) (k : WindowKey) : (w.remove k).Sound := h.of_sublist List.filter_sublist (Nat.le_refl _)

theorem close (h : w.Sound) (k : WindowKey) (r : AttackRef) : (w.close k r).Sound := by
  unfold Windows.close
  split
  · exact h.remove k
  · exact h

theorem update (h : w.Sound) (r : AttackRef) (f : Attack α → Attack α) : (w.update r f).Sound :=
  h.of_sublist (List.Sublist.refl _) (by simp [Windows.update])

/-- A window is opened for a key that has none, with an attack that no window has. -/
theorem opening (h : w.Sound) {k : WindowKey} (hk : w.find? k = none) (a : Attack α) :
    Sound ⟨w.attacks.push a, w.opened ++ [(k, w.attacks.size)]⟩ where
  keys := by
    simp only [List.map_append, List.map_cons, List.map_nil]
    refine List.nodup_append.mpr ⟨h.keys, by simp, fun j hj j' hj' => ?_⟩
    obtain ⟨o, ho, rfl⟩ := List.mem_map.mp hj
    have hne : k ≠ o.1 := by simpa using List.lookup_eq_none_iff.mp hk o ho
    rw [List.mem_singleton.mp hj']
    exact hne.symm
  refs := by
    simp only [List.map_append, List.map_cons, List.map_nil]
    refine List.nodup_append.mpr ⟨h.refs, by simp, fun r hr r' hr' => ?_⟩
    obtain ⟨o, ho, rfl⟩ := List.mem_map.mp hr
    rw [List.mem_singleton.mp hr']
    exact Nat.ne_of_lt (h.given o ho)
  given o ho := by
    rcases List.mem_append.mp ho with ho | ho
    · exact Nat.lt_of_lt_of_le (h.given o ho) (by simp)
    · obtain rfl := List.mem_singleton.mp ho
      simp

theorem register (h : w.Sound) (k : WindowKey) (a : Attack α) : (w.register k a).2.Sound := by
  cases hk : w.find? k with
  | some r =>
    rw [register_of_some hk]
    exact (h.expire k.tick).update r _
  | none =>
    rw [register_of_none hk]
    exact (h.expire k.tick).opening ((w.find?_expire_tick k).trans hk) a

end Sound

theorem Reachable.sound {w : Windows α} (h : w.Reachable) : w.Sound := by
  induction h with
  | start => exact .start
  | expire _ t ih => exact ih.expire t
  | remove _ k ih => exact ih.remove k
  | close _ k r ih => exact ih.close k r
  | update _ r f ih => exact ih.update r f
  | register _ k a ih => exact ih.register k a

end Windows
end Fray
