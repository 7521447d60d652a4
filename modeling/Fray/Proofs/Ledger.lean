import Fray.Proofs.Editing
import Fray.Proofs.Windows

/-! A ledger of contributions. It is kept beside the windows: it says which attack every contribution went into,
    which attacks were applied, as what, and which were lost, and why. Whatever is entered, every attack is in one
    place and holds what was contributed to it, in order. -/

namespace Fray

/-! ### Numbers -/

structure Numbers (α : Type) where
  value : α
  bonus : α
  scale : α

/-- What a change of its numbers leaves of a packet. -/
def Packet.shape {α : Type} (p : Packet α) : (DamageType → Bool) × Option Element := (p.types, p.element)

/-- Gives the packets other numbers, by their indices. -/
def Damage.renumber {α : Type} (d : Damage α) (f : Nat → Numbers α) : Damage α :=
  { d with packets := d.packets.mapIdx fun i p =>
      { p with value := (f i).value, bonus := (f i).bonus, scale := (f i).scale } }

@[simp] theorem Damage.shape_renumber {α : Type} (d : Damage α) (f : Nat → Numbers α) :
    (d.renumber f).packets.map Packet.shape = d.packets.map Packet.shape :=
  List.ext_getElem (by simp [Damage.renumber]) fun i _ _ => by simp [Damage.renumber, Packet.shape]

theorem Damage.exists_renumber {α : Type} [Amount α] {d d' : Damage α}
    (hs : d'.packets.map Packet.shape = d.packets.map Packet.shape) (hd : d' = { d with packets := d'.packets }) :
    ∃ f, d' = d.renumber f := by
  refine ⟨fun i => d'.packets[i]?.elim ⟨0, 0, 0⟩ fun p => ⟨p.value, p.bonus, p.scale⟩, ?_⟩
  have hlength : d'.packets.length = d.packets.length := by simpa using congrArg List.length hs
  rw [hd, Damage.renumber]
  congr 1
  refine List.ext_getElem (by simp [hlength]) fun i h _ => ?_
  have hi : i < d.packets.length := hlength ▸ h
  have hshape : d'.packets[i].shape = d.packets[i].shape := by
    have hget := congrArg (fun shapes => shapes[i]?) hs
    simpa [h, hi] using hget
  obtain ⟨htypes, helement⟩ := Prod.mk.inj hshape
  simp [h, ← htypes, ← helement]

/-- The edits that change nothing but numbers. -/
def Damage.Edit.isNumeric {α : Type} : Damage.Edit α → Bool
  | .bonus _ _ | .scale _ _ => true
  | .packet _ (.setValue _) | .packet _ (.add _) | .packet _ (.scale _) => true
  | _ => false

theorem Packet.shape_act {α : Type} [Amount α] {e : Packet.Edit α} {i : Nat}
    (he : Damage.Edit.isNumeric (.packet i e) = true) (p : Packet α) : (e.act p).shape = p.shape := by
  cases e with
  | setElement element => simp [Damage.Edit.isNumeric] at he
  | setValue value => rfl
  | add bonus => rfl
  | scale coefficient => rfl

theorem Damage.shape_editScope {α : Type} [Amount α] (d : Damage α) (s : Scope) {edit : Packet α → Packet α}
    (h : ∀ p, (edit p).shape = p.shape) : (d.editScope s edit).packets.map Packet.shape = d.packets.map Packet.shape := by
  simp only [Damage.editScope, List.map_map]
  refine List.map_congr_left fun p _ => ?_
  simp only [Function.comp_apply]
  split
  · exact h p
  · rfl

/-- An edit that changes nothing but numbers gives damage with other numbers. -/
theorem Damage.edit_eq_renumber {α : Type} [Amount α] {d d' : Damage α} {e : Damage.Edit α}
    (he : e.isNumeric = true) (h : d.edit e = .ok d') : ∃ f, d' = d.renumber f := by
  obtain ⟨-, rfl⟩ := Damage.edit_eq_ok.mp h
  cases e with
  | add value element types => simp [Damage.Edit.isNumeric] at he
  | addPacket p => simp [Damage.Edit.isNumeric] at he
  | weaponCrit crit => simp [Damage.Edit.isNumeric] at he
  | skillCrit crit => simp [Damage.Edit.isNumeric] at he
  | elementCrit element => simp [Damage.Edit.isNumeric] at he
  | bonus s value => exact Damage.exists_renumber (d.shape_editScope s fun p => rfl) rfl
  | scale s coefficient => exact Damage.exists_renumber (d.shape_editScope s fun p => rfl) rfl
  | packet i e =>
    refine Damage.exists_renumber (List.ext_getElem (by simp [Damage.Edit.act]) fun j _ _ => ?_) rfl
    simp only [Damage.Edit.act, List.getElem_map, List.getElem_modify]
    split
    · exact Packet.shape_act he _
    · rfl

/-! ### Entries -/

inductive Loss where
  | denied
  | cancelled
  | expired
  | unregistered
  deriving DecidableEq

/-- What can happen to the windows. -/
inductive Entry (α : Type) where
  | contribution (k : WindowKey) (a : Attack α)
  | renumbering (r : AttackRef) (f : Nat → Numbers α)
  | expiry (tick : Nat)
  | loss (k : WindowKey) (why : Loss)
  | application (k : WindowKey)

/-- What an entry does to the windows. -/
def Entry.act {α : Type} (w : Windows α) : Entry α → Windows α
  | .contribution k a => (w.register k a).2
  | .renumbering r f => w.update r fun a => { a with damage := a.damage.renumber f }
  | .expiry t => w.expire t
  | .loss k _ => w.remove k
  | .application k => w.remove k

/-- A contribution, and the attack that it went into. -/
structure Contribution (α : Type) where
  key : WindowKey
  damage : Damage α
  attack : AttackRef

structure Ledger (α : Type) where
  windows : Windows α := {}
  /-- Oldest first. -/
  contributions : List (Contribution α) := []
  /-- The attacks whose numbers were changed. -/
  renumbered : List AttackRef := []
  /-- The attacks that were applied, as they were then. -/
  applied : List (AttackRef × Attack α) := []
  lost : List (AttackRef × Loss) := []

namespace Ledger

variable {α : Type} (L : Ledger α)

def expire (t : Nat) : Ledger α :=
  { L with
    windows := L.windows.expire t
    lost := L.lost ++ (L.windows.opened.filter fun o => o.1.tick < t).map fun o => (o.2, .expired) }

/-- Takes a contribution in, once the windows of earlier ticks are dropped. -/
def accept (k : WindowKey) (a : Attack α) : Ledger α :=
  { L with
    windows := (L.windows.register k a).2
    contributions := L.contributions ++ [⟨k, a.damage, (L.windows.register k a).1⟩] }

def renumber (r : AttackRef) (f : Nat → Numbers α) : Ledger α :=
  { L with
    windows := L.windows.update r fun a => { a with damage := a.damage.renumber f }
    renumbered := L.renumbered ++ [r] }

def lose (k : WindowKey) (why : Loss) : Ledger α :=
  { L with
    windows := L.windows.remove k
    lost := L.lost ++ (L.windows.find? k).toList.map fun r => (r, why) }

def apply (k : WindowKey) : Ledger α :=
  { L with
    windows := L.windows.remove k
    applied := L.applied ++ (L.windows.find? k).toList.map fun r => (r, L.windows.attack r) }

def post : Entry α → Ledger α
  | .contribution k a => (L.expire k.tick).accept k a
  | .renumbering r f => L.renumber r f
  | .expiry t => L.expire t
  | .loss k why => L.lose k why
  | .application k => L.apply k

/-- The ledger follows the windows. -/
@[simp] theorem windows_post (e : Entry α) : (L.post e).windows = e.act L.windows := by
  cases e with
  | contribution k a => exact congrArg Prod.snd (L.windows.register_expire k a)
  | renumbering r f => rfl
  | expiry t => rfl
  | loss k why => rfl
  | application k => rfl

def postAll (es : List (Entry α)) : Ledger α := es.foldl post L

theorem windows_postAll (es : List (Entry α)) : (L.postAll es).windows = es.foldl Entry.act L.windows := by
  induction es generalizing L with
  | nil => rfl
  | cons e es ih =>
    simp only [postAll, List.foldl_cons] at ih ⊢
    rw [ih, windows_post]

/-- The contributions that went into an attack, oldest first. -/
def into (r : AttackRef) : List (Contribution α) := L.contributions.filter fun c => c.attack = r

/-- Where every attack is. -/
def places : List AttackRef := L.windows.opened.map Prod.snd ++ (L.applied.map Prod.fst ++ L.lost.map Prod.fst)

/-- Damage holds what was contributed to an attack: the packets in the order of their contribution, with the
    numbers that they came with unless these were changed, and a crit wherever a contribution had it. -/
structure Fills (r : AttackRef) (d : Damage α) : Prop where
  shapes : d.packets.map Packet.shape = (L.into r).flatMap fun c => c.damage.packets.map Packet.shape
  packets : r ∉ L.renumbered → d.packets = (L.into r).flatMap fun c => c.damage.packets
  weaponCrit : d.weaponCrit = (L.into r).any fun c => c.damage.weaponCrit
  skillCrit : d.skillCrit = (L.into r).any fun c => c.damage.skillCrit
  elementCrits : ∀ e, d.elementCrits e = (L.into r).any fun c => c.damage.elementCrits e

/-- Every attack is in one place, and holds what was contributed to it. -/
structure Conserved : Prop where
  sound : L.windows.Sound
  places : L.places.Perm (List.range L.windows.attacks.size)
  given : ∀ c ∈ L.contributions, c.attack < L.windows.attacks.size
  own : ∀ o ∈ L.windows.opened, ∀ c ∈ L.into o.2, c.key = o.1
  opened : ∀ o ∈ L.windows.opened, L.Fills o.2 (L.windows.attack o.2).damage
  applied : ∀ x ∈ L.applied, L.Fills x.1 x.2.damage

/-! ### Entries conserve -/

variable {L} {L' : Ledger α}

theorem Fills.mono {r : AttackRef} {d : Damage α} (h : L.Fills r d) (hi : L'.into r = L.into r)
    (hr : L.renumbered ⊆ L'.renumbered) : L'.Fills r d where
  shapes := by rw [hi]; exact h.shapes
  packets hn := by rw [hi]; exact h.packets fun hm => hn (hr hm)
  weaponCrit := by rw [hi]; exact h.weaponCrit
  skillCrit := by rw [hi]; exact h.skillCrit
  elementCrits := by rw [hi]; exact h.elementCrits

theorem Fills.renumber {r : AttackRef} {d : Damage α} (h : L.Fills r d) (f : Nat → Numbers α)
    (hi : L'.into r = L.into r) (hr : r ∈ L'.renumbered) : L'.Fills r (d.renumber f) where
  shapes := by rw [hi, Damage.shape_renumber]; exact h.shapes
  packets hn := absurd hr hn
  weaponCrit := by rw [hi]; exact h.weaponCrit
  skillCrit := by rw [hi]; exact h.skillCrit
  elementCrits := by rw [hi]; exact h.elementCrits

theorem Fills.merge {r : AttackRef} {d : Damage α} (h : L.Fills r d) {c : Contribution α}
    (hi : L'.into r = L.into r ++ [c]) (hr : L'.renumbered = L.renumbered) : L'.Fills r (d.merge c.damage) where
  shapes := by simp [hi, Damage.merge, h.shapes]
  packets hn := by simp [hi, Damage.merge, h.packets (hr ▸ hn)]
  weaponCrit := by simp [hi, Damage.merge, h.weaponCrit]
  skillCrit := by simp [hi, Damage.merge, h.skillCrit]
  elementCrits e := by simp [hi, Damage.merge, h.elementCrits e]

theorem Fills.ofOne {r : AttackRef} {c : Contribution α} (hi : L.into r = [c]) : L.Fills r c.damage where
  shapes := by simp [hi]
  packets _ := by simp [hi]
  weaponCrit := by simp [hi]
  skillCrit := by simp [hi]
  elementCrits e := by simp [hi]

theorem conserved_start : ({} : Ledger α).Conserved where
  sound := .start
  places := List.Perm.refl _
  given c hc := by simp at hc
  own o ho := by simp at ho
  opened o ho := by simp at ho
  applied x hx := by simp at hx

namespace Conserved

/-- What is taken out of the windows is in a new place. -/
theorem takenOut (h : L.Conserved) (out : List (WindowKey × AttackRef)) (hs : L'.windows.Sound)
    (ha : L'.windows.attacks = L.windows.attacks) (hc : L'.contributions = L.contributions)
    (hr : L'.renumbered = L.renumbered) (ho : L.windows.opened.Perm (L'.windows.opened ++ out))
    (hp : (L'.applied.map Prod.fst ++ L'.lost.map Prod.fst).Perm
      (out.map Prod.snd ++ (L.applied.map Prod.fst ++ L.lost.map Prod.fst)))
    (happ : ∀ x ∈ L'.applied, x ∈ L.applied ∨ ∃ o ∈ out, x = (o.2, L.windows.attack o.2)) : L'.Conserved := by
  have hinto : ∀ r, L'.into r = L.into r := fun r => by rw [into, hc, into]
  have hattack : ∀ r, L'.windows.attack r = L.windows.attack r := fun r => by rw [Windows.attack, ha, Windows.attack]
  have hrenumbered : L.renumbered ⊆ L'.renumbered := by rw [hr]; exact fun _ => id
  have hmem : ∀ o ∈ L'.windows.opened, o ∈ L.windows.opened := fun o hm =>
    ho.mem_iff.mpr (List.mem_append_left _ hm)
  refine ⟨hs, ?_, ?_, ?_, ?_, ?_⟩
  · -- What is in `out` left the windows and joined what was applied or lost, so the places only change order.
    rw [ha]
    refine List.Perm.trans ?_ h.places
    calc L'.windows.opened.map Prod.snd ++ (L'.applied.map Prod.fst ++ L'.lost.map Prod.fst)
      _ |>.Perm (L'.windows.opened.map Prod.snd ++
          (out.map Prod.snd ++ (L.applied.map Prod.fst ++ L.lost.map Prod.fst))) := hp.append_left _
      _ |>.Perm (L.windows.opened.map Prod.snd ++ (L.applied.map Prod.fst ++ L.lost.map Prod.fst)) := by
        rw [← List.append_assoc, ← List.map_append]
        exact ((ho.map Prod.snd).symm.append_right _)
  · rw [hc, ha]
    exact h.given
  · intro o hm c hcm
    exact h.own o (hmem o hm) c (hinto o.2 ▸ hcm)
  · intro o hm
    rw [hattack]
    exact (h.opened o (hmem o hm)).mono (hinto _) hrenumbered
  · intro x hx
    rcases happ x hx with hx | ⟨o, hm, rfl⟩
    · exact (h.applied x hx).mono (hinto _) hrenumbered
    · exact (h.opened o (ho.mem_iff.mpr (List.mem_append_right _ hm))).mono (hinto _) hrenumbered

theorem expire (h : L.Conserved) (t : Nat) : (L.expire t).Conserved := by
  refine h.takenOut (L.windows.opened.filter fun o => o.1.tick < t) (h.sound.expire t) rfl rfl rfl ?_ ?_ ?_
  · have hsplit := List.filter_append_perm (fun o : WindowKey × AttackRef => decide (t ≤ o.1.tick)) L.windows.opened
    have hlate : (fun o : WindowKey × AttackRef => !decide (t ≤ o.1.tick)) = fun o => decide (o.1.tick < t) := by
      funext o
      rw [← decide_not]
      exact decide_eq_decide.mpr Nat.not_le
    rw [hlate] at hsplit
    exact hsplit.symm
  · simp only [Ledger.expire, List.map_append, List.map_map, Function.comp_def]
    rw [← List.append_assoc]
    exact List.perm_append_comm
  · exact fun x hx => Or.inl hx

theorem perm_remove (h : L.Conserved) (k : WindowKey) :
    L.windows.opened.Perm
      ((L.windows.remove k).opened ++ (L.windows.find? k).toList.map fun r => (k, r)) := by
  have hsplit := List.filter_append_perm (fun o : WindowKey × AttackRef => decide (o.1 ≠ k)) L.windows.opened
  have hout := filter_fst_eq h.sound.keys k
  rw [Windows.find?, ← hout]
  simpa [Windows.remove] using hsplit.symm

theorem lose (h : L.Conserved) (k : WindowKey) (why : Loss) : (L.lose k why).Conserved := by
  refine h.takenOut _ (h.sound.remove k) rfl rfl rfl (h.perm_remove k) ?_ fun x hx => Or.inl hx
  simp only [Ledger.lose, List.map_append, List.map_map, Function.comp_def, List.map_id']
  rw [← List.append_assoc]
  exact List.perm_append_comm

theorem apply (h : L.Conserved) (k : WindowKey) : (L.apply k).Conserved := by
  refine h.takenOut _ (h.sound.remove k) rfl rfl rfl (h.perm_remove k) ?_ fun x hx => ?_
  · simp only [Ledger.apply, List.map_append, List.map_map, Function.comp_def, List.map_id']
    rw [← List.append_assoc]
    exact List.perm_append_comm.append_right _
  · rcases List.mem_append.mp hx with hx | hx
    · exact Or.inl hx
    · obtain ⟨r, hr, rfl⟩ := List.mem_map.mp hx
      exact Or.inr ⟨(k, r), List.mem_map.mpr ⟨r, hr, rfl⟩, rfl⟩

theorem renumber (h : L.Conserved) (r : AttackRef) (f : Nat → Numbers α) : (L.renumber r f).Conserved := by
  have hinto : ∀ s, (L.renumber r f).into s = L.into s := fun s => rfl
  have hrenumbered : L.renumbered ⊆ (L.renumber r f).renumbered := List.subset_append_left _ _
  refine ⟨h.sound.update r _, ?_, ?_, h.own, ?_, fun x hx => (h.applied x hx).mono (hinto _) hrenumbered⟩
  · simpa [Ledger.renumber, Ledger.places, Windows.update] using h.places
  · simpa [Ledger.renumber, Windows.update] using h.given
  · intro o ho
    have hfills := h.opened o ho
    by_cases hr : o.2 = r
    · subst hr
      have hattack : ((L.renumber o.2 f).windows.attack o.2).damage = (L.windows.attack o.2).damage.renumber f := by
        simp [Ledger.renumber, L.windows.attack_update (h.sound.given o ho)]
      rw [hattack]
      exact hfills.renumber f (hinto _) (List.mem_append_right _ (List.mem_singleton_self _))
    · have hattack : (L.renumber r f).windows.attack o.2 = L.windows.attack o.2 :=
        L.windows.attack_update_of_ne hr _
      rw [hattack]
      exact hfills.mono (hinto _) hrenumbered

theorem nodup_places (h : L.Conserved) : L.places.Nodup := h.places.nodup_iff.mpr List.nodup_range

theorem applied_ne (h : L.Conserved) {o : WindowKey × AttackRef} (ho : o ∈ L.windows.opened) {x : AttackRef × Attack α}
    (hx : x ∈ L.applied) : x.1 ≠ o.2 := by
  intro heq
  have hdisjoint := (List.nodup_append.mp h.nodup_places).2.2
  refine hdisjoint o.2 (List.mem_map.mpr ⟨o, ho, rfl⟩) x.1 ?_ heq.symm
  exact List.mem_append_left _ (List.mem_map.mpr ⟨x, hx, rfl⟩)

theorem applied_lt (h : L.Conserved) {x : AttackRef × Attack α} (hx : x ∈ L.applied) :
    x.1 < L.windows.attacks.size := by
  have hm : x.1 ∈ L.places :=
    List.mem_append_right _ (List.mem_append_left _ (List.mem_map.mpr ⟨x, hx, rfl⟩))
  exact List.mem_range.mp (h.places.mem_iff.mp hm)

theorem accept_of_some (h : L.Conserved) {k : WindowKey} (he : L.windows.expire k.tick = L.windows) {r : AttackRef}
    (hk : L.windows.find? k = some r) (a : Attack α) : (L.accept k a).Conserved := by
  have hwindows : (L.accept k a).windows = L.windows.update r fun b => { b with damage := b.damage.merge a.damage } := by
    simp [Ledger.accept, Windows.register_of_some hk, he]
  have hcontributions : (L.accept k a).contributions = L.contributions ++ [⟨k, a.damage, r⟩] := by
    simp [Ledger.accept, Windows.register_of_some hk]
  have hkr : (k, r) ∈ L.windows.opened := Windows.mem_of_find? hk
  have hself : (L.accept k a).into r = L.into r ++ [⟨k, a.damage, r⟩] := by
    simp [into, hcontributions]
  have hother : ∀ s, s ≠ r → (L.accept k a).into s = L.into s := by
    intro s hs
    simp [into, hcontributions, Ne.symm hs]
  have hopened : (L.accept k a).windows.opened = L.windows.opened := by rw [hwindows]; rfl
  refine ⟨h.sound.register k a, ?_, ?_, ?_, ?_, ?_⟩
  · rw [Ledger.places, hopened, hwindows]
    simp only [Windows.update, Array.size_modify]
    exact h.places
  · intro c hc
    rw [hwindows]
    simp only [Windows.update, Array.size_modify]
    rw [hcontributions] at hc
    rcases List.mem_append.mp hc with hc | hc
    · exact h.given c hc
    · rw [List.mem_singleton.mp hc]
      exact h.sound.given (k, r) hkr
  · intro o ho c hc
    rw [hopened] at ho
    by_cases hr : o.2 = r
    · have heq : o = (k, r) := h.sound.eq_of_ref_eq ho hkr hr
      rw [hr, hself] at hc
      rcases List.mem_append.mp hc with hc | hc
      · exact h.own o ho c (hr ▸ hc)
      · rw [List.mem_singleton.mp hc, heq]
    · rw [hother o.2 hr] at hc
      exact h.own o ho c hc
  · intro o ho
    rw [hopened] at ho
    have hfills := h.opened o ho
    rw [hwindows]
    by_cases hr : o.2 = r
    · subst hr
      rw [Windows.attack_update _ (h.sound.given o ho)]
      exact hfills.merge hself rfl
    · rw [Windows.attack_update_of_ne _ hr]
      exact hfills.mono (hother o.2 hr) (List.Subset.refl _)
  · -- An applied attack has no window left, so nothing is contributed to it here.
    intro x hx
    exact (h.applied x hx).mono (hother x.1 (h.applied_ne hkr hx)) (List.Subset.refl _)

theorem accept_of_none (h : L.Conserved) {k : WindowKey} (he : L.windows.expire k.tick = L.windows)
    (hk : L.windows.find? k = none) (a : Attack α) : (L.accept k a).Conserved := by
  obtain ⟨r, hr⟩ : ∃ r, L.windows.attacks.size = r := ⟨_, rfl⟩
  have hwindows : (L.accept k a).windows = ⟨L.windows.attacks.push a, L.windows.opened ++ [(k, r)]⟩ := by
    simp [Ledger.accept, Windows.register_of_none hk, he, hr]
  have hcontributions : (L.accept k a).contributions = L.contributions ++ [⟨k, a.damage, r⟩] := by
    simp [Ledger.accept, Windows.register_of_none hk, hr]
  -- Every contribution so far went into an attack given out before.
  have hnew : L.into r = [] := by
    refine List.filter_eq_nil_iff.mpr fun c hc => ?_
    have hlt := h.given c hc
    simpa using Nat.ne_of_lt (hr ▸ hlt)
  have hself : (L.accept k a).into r = [⟨k, a.damage, r⟩] := by
    have hadded : (L.accept k a).into r = L.into r ++ [⟨k, a.damage, r⟩] := by simp [into, hcontributions]
    rw [hadded, hnew, List.nil_append]
  have hother : ∀ s, s < r → (L.accept k a).into s = L.into s := by
    intro s hs
    simp [into, hcontributions, Nat.ne_of_gt hs]
  refine ⟨h.sound.register k a, ?_, ?_, ?_, ?_, ?_⟩
  · have hplaces : (L.accept k a).places.Perm (L.places ++ [r]) := by
      simp only [Ledger.places, hwindows, List.map_append, List.map_cons, List.map_nil]
      rw [List.append_assoc (L.windows.opened.map Prod.snd), List.append_assoc (L.windows.opened.map Prod.snd)]
      have hlast : ∀ rs, ([r] ++ rs).Perm (rs ++ [r]) := fun rs => List.perm_append_comm
      exact (hlast _).append_left _
    refine hplaces.trans ?_
    rw [hwindows]
    simp only [Array.size_push, List.range_succ, hr]
    exact (hr ▸ h.places).append_right _
  · intro c hc
    rw [hwindows]
    simp only [Array.size_push]
    rw [hcontributions] at hc
    rcases List.mem_append.mp hc with hc | hc
    · exact Nat.lt_succ_of_lt (h.given c hc)
    · rw [List.mem_singleton.mp hc, hr]
      exact Nat.lt_succ_self r
  · intro o ho c hc
    rw [hwindows] at ho
    rcases List.mem_append.mp ho with ho | ho
    · rw [hother o.2 (hr ▸ h.sound.given o ho)] at hc
      exact h.own o ho c hc
    · obtain rfl := List.mem_singleton.mp ho
      rw [hself] at hc
      rw [List.mem_singleton.mp hc]
  · intro o ho
    rw [hwindows] at ho ⊢
    rcases List.mem_append.mp ho with ho | ho
    · have hlt := h.sound.given o ho
      have hattack : Windows.attack ⟨L.windows.attacks.push a, L.windows.opened ++ [(k, r)]⟩ o.2 =
          L.windows.attack o.2 := by
        simp [Windows.attack, Array.getElem?_push, Nat.ne_of_lt hlt]
      rw [hattack]
      exact (h.opened o ho).mono (hother o.2 (hr ▸ hlt)) (List.Subset.refl _)
    · obtain rfl := List.mem_singleton.mp ho
      have hattack : Windows.attack ⟨L.windows.attacks.push a, L.windows.opened ++ [(k, r)]⟩ r = a := by
        simp [Windows.attack, ← hr]
      rw [hattack]
      exact .ofOne hself
  · intro x hx
    exact (h.applied x hx).mono (hother x.1 (hr ▸ h.applied_lt hx)) (List.Subset.refl _)

theorem post (h : L.Conserved) (e : Entry α) : (L.post e).Conserved := by
  cases e with
  | contribution k a =>
    have hexpired := h.expire k.tick
    have he : (L.expire k.tick).windows.expire k.tick = (L.expire k.tick).windows := L.windows.expire_expire k.tick
    cases hk : (L.expire k.tick).windows.find? k with
    | some r => exact hexpired.accept_of_some he hk a
    | none => exact hexpired.accept_of_none he hk a
  | renumbering r f => exact h.renumber r f
  | expiry t => exact h.expire t
  | loss k why => exact h.lose k why
  | application k => exact h.apply k

theorem postAll (h : L.Conserved) (es : List (Entry α)) : (L.postAll es).Conserved := by
  induction es generalizing L with
  | nil => exact h
  | cons e es ih => exact ih (h.post e)

/-- A contribution is in one place, and in no other. -/
theorem count_places (h : L.Conserved) {c : Contribution α} (hc : c ∈ L.contributions) :
    L.places.count c.attack = 1 :=
  List.count_eq_one_of_mem h.nodup_places (h.places.mem_iff.mpr (List.mem_range.mpr (h.given c hc)))

end Conserved
end Ledger
end Fray
