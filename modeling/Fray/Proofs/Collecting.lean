import Fray.Proofs.Editing
import Fray.Proofs.Windows

/-! Windows as they are collected: attacks that fit their keys are contributed, edited and dropped. The attacks of the
    open windows go on fitting, and as long as contributions come in the order of their ticks all windows are of the
    tick of the latest one. -/

namespace Fray

variable {α : Type}

/-- The attack is on the target of the key, of nobody or of the attacker of the key, and has something to deal. -/
structure Attack.Fits (a : Attack α) (k : WindowKey) : Prop where
  target : a.target = k.target
  attacker : ∀ wielder, a.attacker = some wielder → k.attacker = some wielder.entity
  packets : a.damage.packets ≠ []

/-- No edit takes a packet away. -/
theorem Damage.packets_edit [Amount α] {d d' : Damage α} {e : Damage.Edit α} (h : d.edit e = .ok d')
    (hd : d.packets ≠ []) : d'.packets ≠ [] := by
  obtain ⟨-, rfl⟩ := edit_eq_ok.mp h
  have hlength : d.packets.length ≤ (e.act d).packets.length := by
    cases e <;> simp [Edit.act, editScope]
  exact List.ne_nil_of_length_pos (Nat.lt_of_lt_of_le (List.length_pos_of_ne_nil hd) hlength)

/-! ### What happens to windows -/

namespace Windows

/-- From some windows others are come to: windows are dropped, the damage of attacks is edited, and attacks that fit
    their keys are contributed, one at each of the ticks. -/
inductive Collects [Amount α] (w : Windows α) : List Nat → Windows α → Prop
  | refl : Collects w [] w
  | drop {ts : List Nat} {v u : Windows α} (h : Collects w ts v) (hs : u.opened.Sublist v.opened)
    (ha : u.attacks = v.attacks) : Collects w ts u
  | edit {ts : List Nat} {v : Windows α} {d : Damage α} (h : Collects w ts v) {r : AttackRef} {e : Damage.Edit α}
    (he : (v.attack r).damage.edit e = .ok d) : Collects w ts (v.update r fun a => { a with damage := d })
  | contribute {ts : List Nat} {v : Windows α} (h : Collects w ts v) {k : WindowKey} {a : Attack α} (ha : a.Fits k) :
    Collects w (ts ++ [k.tick]) (v.register k a).2

/-- An attack keeps its target, its attacker and something to deal. -/
structure Persists (w v : Windows α) (r : AttackRef) : Prop where
  target : (v.attack r).target = (w.attack r).target
  attacker : (v.attack r).attacker = (w.attack r).attacker
  packets : (w.attack r).damage.packets ≠ [] → (v.attack r).damage.packets ≠ []

/-- The attacks of the open windows fit their keys. -/
def Fitting (w : Windows α) : Prop := ∀ o ∈ w.opened, (w.attack o.2).Fits o.1

/-- If the contributions came in the order of their ticks, every window is of the tick of the latest. -/
def Latest (ts : List Nat) (w : Windows α) : Prop :=
  ts.Pairwise (· ≤ ·) → ∀ o ∈ w.opened, ts.getLast? = some o.1.tick

variable {w v u : Windows α} {r : AttackRef} {k : WindowKey} {ts us : List Nat}

theorem lt_size_of_packets (h : (w.attack r).damage.packets ≠ []) : r < w.attacks.size := by
  by_contra hr
  apply h
  simp only [attack, Array.getD, hr, dite_false]
  rfl

namespace Persists

theorem refl (w : Windows α) (r : AttackRef) : Persists w w r := ⟨rfl, rfl, id⟩

theorem trans (h : Persists w v r) (h' : Persists v u r) : Persists w u r :=
  ⟨h'.target.trans h.target, h'.attacker.trans h.attacker, fun hp => h'.packets (h.packets hp)⟩

theorem of_attack (h : v.attack r = w.attack r) : Persists w v r := ⟨by rw [h], by rw [h], fun hp => by rwa [h]⟩

theorem fits (h : Persists w v r) (hw : (w.attack r).Fits k) : (v.attack r).Fits k where
  target := h.target.trans hw.target
  attacker wielder hv := hw.attacker wielder (h.attacker ▸ hv)
  packets := h.packets hw.packets

end Persists

/-- A change of damage that takes nothing away. -/
theorem persists_update (hr : r < w.attacks.size) (s : AttackRef) {f : Damage α → Damage α}
    (hf : s = r → (w.attack r).damage.packets ≠ [] → (f (w.attack r).damage).packets ≠ []) :
    Persists w (w.update s fun a => { a with damage := f a.damage }) r := by
  by_cases h : r = s
  · subst h
    have hattack := attack_update w hr fun a => { a with damage := f a.damage }
    exact ⟨by rw [hattack], by rw [hattack], fun hp => by rw [hattack]; exact hf rfl hp⟩
  · exact .of_attack (attack_update_of_ne _ h _)

theorem size_le_register (w : Windows α) (k : WindowKey) (a : Attack α) :
    w.attacks.size ≤ (w.register k a).2.attacks.size := by
  cases hk : w.find? k with
  | some s =>
    rw [register_of_some hk]
    simp [update]
  | none =>
    rw [register_of_none hk]
    simp

theorem persists_register (hr : r < w.attacks.size) (k : WindowKey) (a : Attack α) :
    Persists w (w.register k a).2 r := by
  cases hk : w.find? k with
  | some s =>
    rw [register_of_some hk]
    have h : Persists (w.expire k.tick) _ r := persists_update (w := w.expire k.tick) hr s
      (f := fun d => d.merge a.damage) fun _ hp => List.append_ne_nil_of_left_ne_nil hp _
    exact ⟨h.target, h.attacker, h.packets⟩
  | none =>
    rw [register_of_none hk]
    exact .of_attack (by simp [attack, Array.getElem?_push, Nat.ne_of_lt hr])

/-! ### What stays so -/

theorem Fitting.of_sublist (h : w.Fitting) (hs : v.opened.Sublist w.opened) (ha : v.attacks = w.attacks) :
    v.Fitting := by
  intro o ho
  simpa only [attack, ha] using h o (hs.subset ho)

theorem Fitting.register (h : w.Fitting) {a : Attack α} (ha : a.Fits k) : (w.register k a).2.Fitting := by
  have hold : ∀ o ∈ w.opened, ((w.register k a).2.attack o.2).Fits o.1 := fun o ho =>
    (persists_register (lt_size_of_packets (h o ho).packets) k a).fits (h o ho)
  cases hk : w.find? k with
  | some s =>
    intro o ho
    rw [register_of_some hk] at ho
    exact hold o (List.mem_of_mem_filter ho)
  | none =>
    intro o ho
    have hnew := attack_register_of_none hk a
    rw [register_of_none hk] at ho hnew
    rcases List.mem_append.mp ho with ho | ho
    · exact hold o (List.mem_of_mem_filter ho)
    · rw [List.mem_singleton.mp ho, register_of_none hk, hnew]
      exact ha

/-- A contribution drops the windows of earlier ticks; so where none is of a later tick, all are of its own. -/
theorem Latest.register (h : w.Latest ts) (k : WindowKey) (a : Attack α) :
    (w.register k a).2.Latest (ts ++ [k.tick]) := by
  intro hts o ho
  obtain ⟨hts, -, hle⟩ := List.pairwise_append.mp hts
  -- What is kept is of this tick at the earliest, and of no later one by the order of the contributions.
  have hold : o ∈ (w.expire k.tick).opened → o.1.tick = k.tick := by
    intro ho
    obtain ⟨ho, hkept⟩ := List.mem_filter.mp ho
    have hlast := List.mem_of_getLast? (h hts o ho)
    exact Nat.le_antisymm (hle _ hlast _ (List.mem_singleton_self _)) (of_decide_eq_true hkept)
  have htick : o.1.tick = k.tick := by
    cases hk : w.find? k with
    | some s =>
      rw [register_of_some hk] at ho
      exact hold ho
    | none =>
      rw [register_of_none hk] at ho
      rcases List.mem_append.mp ho with ho | ho
      · exact hold ho
      · rw [List.mem_singleton.mp ho]
  simp [htick]

namespace Collects

variable [Amount α]

theorem trans (h : Collects w ts v) (h' : Collects v us u) : Collects w (ts ++ us) u := by
  induction h' with
  | refl => simpa using h
  | drop _ hs ha ih => exact ih.drop hs ha
  | edit _ he ih => exact ih.edit he
  | contribute _ ha ih =>
    rw [← List.append_assoc]
    exact ih.contribute ha

theorem persists (h : Collects w ts v) (hr : r < w.attacks.size) : Persists w v r ∧ r < v.attacks.size := by
  induction h with
  | refl => exact ⟨.refl w r, hr⟩
  | drop _ hs ha ih =>
    refine ⟨ih.1.trans (.of_attack (by simp only [attack, ha])), ?_⟩
    rw [ha]
    exact ih.2
  | @edit ts v d h s e he ih =>
    refine ⟨ih.1.trans (persists_update ih.2 s (f := fun _ => d) ?_), by simpa [update] using ih.2⟩
    rintro rfl hp
    exact Damage.packets_edit he hp
  | contribute _ ha ih => exact ⟨ih.1.trans (persists_register ih.2 _ _), Nat.lt_of_lt_of_le ih.2 (size_le_register ..)⟩

theorem fitting (h : Collects w ts v) (hw : w.Fitting) : v.Fitting := by
  induction h with
  | refl => exact hw
  | drop _ hs ha ih => exact ih.of_sublist hs ha
  | @edit ts v d h s e he ih =>
    intro o ho
    refine (persists_update (lt_size_of_packets (ih o ho).packets) s (f := fun _ => d) ?_).fits (ih o ho)
    rintro rfl hp
    exact Damage.packets_edit he hp
  | contribute _ ha ih => exact ih.register ha

theorem latest (h : Collects w us v) (hw : w.Latest ts) : v.Latest (ts ++ us) := by
  induction h with
  | refl => simpa using hw
  | drop _ hs ha ih => exact fun hts o ho => ih hts o (hs.subset ho)
  | edit _ he ih => exact ih
  | contribute _ ha ih =>
    rw [← List.append_assoc]
    exact ih.register _ _

end Collects
end Windows
end Fray
