import Fray.Proofs.Conservation

/-! Resolutions within resolutions. Listeners may resolve further blows, from within any event and to any depth. Once
    the attack event of a resolution is over its attack is spent: whatever happens then, no resolution finds it again.
    Only a resolution that runs during the attack event may find the same attack, since the window is still open
    there. -/

namespace Fray

open Act

namespace Windows

variable {α : Type}

/-- What operations lead from some windows to others. -/
inductive Reaches (w : Windows α) : Windows α → Prop
  | refl : Reaches w w
  | expire {v : Windows α} (h : Reaches w v) (t : Nat) : Reaches w (v.expire t)
  | remove {v : Windows α} (h : Reaches w v) (k : WindowKey) : Reaches w (v.remove k)
  | close {v : Windows α} (h : Reaches w v) (k : WindowKey) (r : AttackRef) : Reaches w (v.close k r)
  | update {v : Windows α} (h : Reaches w v) (r : AttackRef) (f : Attack α → Attack α) : Reaches w (v.update r f)
  | register {v : Windows α} (h : Reaches w v) (k : WindowKey) (a : Attack α) : Reaches w (v.register k a).2

/-- An attack that was given out, and stands behind windows of some keys only. -/
def Confined (w : Windows α) (r : AttackRef) (p : WindowKey → Prop) : Prop :=
  r < w.attacks.size ∧ ∀ o ∈ w.opened, o.2 = r → p o.1

/-- An attack that was given out, and stands behind no window any more. -/
def Spent (w : Windows α) (r : AttackRef) : Prop := w.Confined r fun _ => False

variable {w v u : Windows α} {r : AttackRef} {k : WindowKey} {p : WindowKey → Prop}

theorem Reaches.trans (h : w.Reaches v) (h' : v.Reaches u) : w.Reaches u := by
  induction h' with
  | refl => exact h
  | expire _ t ih => exact ih.expire t
  | remove _ k ih => exact ih.remove k
  | close _ k r ih => exact ih.close k r
  | update _ r f ih => exact ih.update r f
  | register _ k a ih => exact ih.register k a

theorem Reaches.sound (h : w.Reaches v) (hw : w.Sound) : v.Sound := by
  induction h with
  | refl => exact hw
  | expire _ t ih => exact ih.expire t
  | remove _ k ih => exact ih.remove k
  | close _ k r ih => exact ih.close k r
  | update _ r f ih => exact ih.update r f
  | register _ k a ih => exact ih.register k a

theorem Sound.find?_of_mem (h : w.Sound) (hr : (k, r) ∈ w.opened) : w.find? k = some r := by
  cases hfind : w.find? k with
  | some s => exact congrArg (fun o => some o.2) (List.inj_on_of_nodup_map h.keys (mem_of_find? hfind) hr rfl)
  | none =>
    have hne : k ≠ k := by simpa using List.lookup_eq_none_iff.mp hfind _ hr
    exact absurd rfl hne

namespace Confined

theorem of_sublist (h : w.Confined r p) (hs : v.opened.Sublist w.opened) (ha : w.attacks.size ≤ v.attacks.size) :
    v.Confined r p :=
  ⟨Nat.lt_of_lt_of_le h.1 ha, fun o ho => h.2 o (hs.subset ho)⟩

theorem expire (h : w.Confined r p) (t : Nat) : (w.expire t).Confined r p :=
  h.of_sublist List.filter_sublist (Nat.le_refl _)

theorem remove (h : w.Confined r p) (k : WindowKey) : (w.remove k).Confined r p :=
  h.of_sublist List.filter_sublist (Nat.le_refl _)

theorem close (h : w.Confined r p) (k : WindowKey) (s : AttackRef) : (w.close k s).Confined r p := by
  unfold Windows.close
  split
  · exact h.remove k
  · exact h

theorem update (h : w.Confined r p) (s : AttackRef) (f : Attack α → Attack α) : (w.update s f).Confined r p :=
  h.of_sublist (List.Sublist.refl _) (by simp [Windows.update])

/-- A window is opened with an attack that was not given out before. -/
theorem register (h : w.Confined r p) (k : WindowKey) (a : Attack α) : (w.register k a).2.Confined r p := by
  cases hk : w.find? k with
  | some s =>
    rw [register_of_some hk]
    exact (h.expire k.tick).update s _
  | none =>
    rw [register_of_none hk]
    refine ⟨Nat.lt_of_lt_of_le h.1 (by simp), fun o ho hor => ?_⟩
    rcases List.mem_append.mp ho with ho | ho
    · exact (h.expire k.tick).2 o ho hor
    · obtain rfl := List.mem_singleton.mp ho
      exact absurd hor (Nat.ne_of_gt h.1)

theorem reaches (h : w.Confined r p) (hv : w.Reaches v) : v.Confined r p := by
  induction hv with
  | refl => exact h
  | expire _ t ih => exact ih.expire t
  | remove _ k ih => exact ih.remove k
  | close _ k r ih => exact ih.close k r
  | update _ r f ih => exact ih.update r f
  | register _ k a ih => exact ih.register k a

/-- Once the window of its key is closed an attack is spent, whoever closed it. -/
theorem spent (h : w.Confined r (· = k)) (hw : w.Sound) : (w.close k r).Spent r := by
  by_cases hfind : w.find? k = some r
  · rw [close_of_find? hfind]
    refine ⟨h.1, fun o ho hor => ?_⟩
    obtain ⟨ho, hne⟩ := List.mem_filter.mp ho
    exact of_decide_eq_true hne (h.2 o ho hor)
  · have hsame : w.close k r = w := by simp [Windows.close, hfind]
    rw [hsame]
    refine ⟨h.1, fun o ho hor => hfind (hw.find?_of_mem ?_)⟩
    rw [← h.2 o ho hor, ← hor]
    exact ho

end Confined

theorem Sound.confined (h : w.Sound) (hr : w.find? k = some r) : w.Confined r (· = k) := by
  have hmem := mem_of_find? hr
  refine ⟨h.given _ hmem, fun o ho hor => ?_⟩
  rw [h.eq_of_ref_eq ho hmem hor]

theorem Spent.find?_ne (h : w.Spent r) : w.find? k ≠ some r := fun hk => h.2 _ (mem_of_find? hk) rfl

end Windows

/-! ### Resolutions -/

namespace World

variable {α η : Type}

/-- Whatever is done, to the windows it is done by their operations. -/
def Operates (w v : World α η) : Prop := w.windows.Reaches v.windows

theorem lasting_operates : Lasting (Operates (α := α) (η := η)) := ⟨fun _ => .refl, fun h h' => h.trans h'⟩

variable [Amount α] [Host η α] {l : Listeners α η} {b : Blow α} {w v u : World α η} {r : AttackRef}

omit [Host η α] in
theorem conclude_operates (hl : l.Within Operates) (b : Blow α) (a : Attack α) (killer : Option EntityId) :
    Act.Within Operates (conclude l b a killer) :=
  conclude_within lasting_operates (fun _ _ _ => .refl) hl b a killer

theorem Located.operates (h : Located w b r v) : Operates w v := by
  cases h with
  | known h => exact .expire .refl b.tick
  | discovered h ha => exact .register .refl b.key _

theorem Shown.operates (hl : l.Within Operates) {c : Bool} (h : Shown l b w r v c u) : Operates v u := by
  have hasked : Operates v (after (l.askAttack r) v) := l.askAttack_within lasting_operates hl r v
  rw [h.closed]
  exact hasked.close b.key r

/-- A listener may resolve blows. -/
theorem resolve_operates (hl : l.Within Operates) (b : Blow α) : Act.Within Operates (resolve (η := η) l b) := by
  intro w
  have hexit := resolve_exit l b w
  generalize (answer (resolve l b) w).1 = o at hexit
  generalize (answer (resolve l b) w).2 = b' at hexit
  generalize after (resolve l b) w = w' at hexit ⊢
  cases hexit with
  | ignored => exact .refl
  | withdrawn => exact (Windows.Reaches.expire .refl b.tick).remove b.key
  | baseless => exact .expire .refl b.tick
  | denied _ _ hs => exact Windows.Reaches.close hs.located.operates b.key _
  | stopped h => exact lasting_operates.trans h.sought.located.operates (h.operates hl)
  | @spent r v u previous j h =>
    -- What is noted after the event is nothing to the windows.
    have hshown : Operates v u := h.operates hl
    exact lasting_operates.trans h.sought.located.operates hshown
  | applied h =>
    exact lasting_operates.trans (lasting_operates.trans h.sought.located.operates (h.operates hl))
      (conclude_operates hl b _ _ _)

theorem Sought.not_spent (h : Sought w b r v) : ¬ w.windows.Spent r := by
  intro hspent
  have hlater : v.windows.Spent r := hspent.reaches h.located.operates
  exact hlater.find?_ne h.located.found

theorem Shown.spent (hl : l.Within Operates) (hw : w.windows.Sound) {c : Bool} (h : Shown l b w r v c u) :
    u.windows.Spent r := by
  have hv : v.windows.Sound := h.sought.located.operates.sound hw
  have hasked : Operates v (after (l.askAttack r) v) := l.askAttack_within lasting_operates hl r v
  rw [h.closed]
  exact ((hv.confined h.sought.located.found).reaches hasked).spent (hasked.sound hv)

/-- The attack event of an applied blow is over in a world from which on no resolution finds the attack again: neither
    one that the listeners begin when they are told of a kill or of the applied attack, nor any later one. -/
theorem resolve_spends (hl : l.Within Operates) (hw : w.windows.Sound) {d : α} {killed : Bool}
    (h : (answer (resolve l b) w).1 = .applied d killed) :
    ∃ r v u, Shown l b w r v false u ∧ ¬ w.windows.Spent r ∧ Operates u (after (resolve l b) w) ∧
      ∀ x, Operates u x → x.windows.Spent r ∧ ∀ b' y, ¬ Sought x b' r y := by
  have hexit := resolve_exit l b w
  rw [h] at hexit
  generalize (answer (resolve l b) w).2 = b' at hexit
  generalize after (resolve l b) w = w' at hexit ⊢
  cases hexit with
  | @applied r v u a killer hshown hfinal ha hk =>
    refine ⟨r, v, u, hshown, hshown.sought.not_spent, conclude_operates hl b _ _ u, fun x hx => ?_⟩
    have hspent : x.windows.Spent r := (hshown.spent hl hw).reaches hx
    exact ⟨hspent, fun b' y hsought => hsought.not_spent hspent⟩

/-! ### An echo -/

/-- A listener that answers an attack by resolving the stroke once more. -/
def echo : Listeners Rat (Arena Rat) :=
  { Listeners.silent with
    attack := fun _ _ cancelled => do
      discard (resolve .silent stroke)
      return cancelled }

theorem echo_operates : echo.Within Operates :=
  { Listeners.silent_within lasting_operates with
    attack := fun _ _ cancelled => by
      refine lasting_operates.bind (fun w => ?_) fun _ => lasting_operates.pure cancelled
      exact resolve_operates (Listeners.silent_within lasting_operates) stroke w }

theorem applied_echo : (answer (resolve echo stroke) seconded).1 = .applied 6 true := by decide +kernel

theorem spends_echo : echo.Within Operates ∧ seconded.windows.Sound ∧
    (answer (resolve echo stroke) seconded).1 = .applied 6 true ∧
    ∃ r v u, Shown echo stroke seconded r v false u ∧ ¬ seconded.windows.Spent r ∧
      Operates u (after (resolve echo stroke) seconded) ∧
      ∀ x, Operates u x → x.windows.Spent r ∧ ∀ b' y, ¬ Sought x b' r y :=
  ⟨echo_operates, .start, applied_echo, resolve_spends echo_operates .start applied_echo⟩

/-- The echo finds the attack that is being shown: the one attack there is applied by both resolutions. -/
theorem echo_twice : echo.Within Operates ∧ (answer (resolve echo stroke) seconded).1 = .applied 6 true ∧
    (after (resolve echo stroke) seconded).windows.attacks.size = 1 ∧
    (after (resolve echo stroke) seconded).finalizations.length = 2 :=
  ⟨echo_operates, by decide +kernel, by decide +kernel, by decide +kernel⟩

end World
end Fray
