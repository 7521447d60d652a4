import Mathlib.Data.List.Perm.Basic
import Fray.Proofs.Blend
import Fray.Proofs.Windows

/-! Contributions of one tick, gathered under their keys. The attack behind a key holds what was contributed to that
    key and nothing else; so contributions that come in another order leave the same windows, with attacks that are
    alike. -/

namespace Fray

section Options

variable {β : Type} {R S : β → β → Prop} {x y : Option β}

theorem isSome_iff_of_rel (h : Option.Rel R x y) : x.isSome ↔ y.isSome := by
  cases h with
  | some _ => rfl
  | none => rfl

theorem rel_of_rel (hR : ∀ a b, R a b → S a b) (h : Option.Rel R x y) : Option.Rel S x y := by
  cases h with
  | some hab => exact .some (hR _ _ hab)
  | none => exact .none

end Options

variable {α : Type}

namespace Attack

/-- Whom the attack is of, whichever hand it came from. -/
def dealer (a : Attack α) : Option EntityId := a.attacker.map (·.entity)

/-- What a contribution makes of the attack that it finds, if it finds one. -/
def joined (found : Option (Attack α)) (a : Attack α) : Attack α :=
  match found with
  | some b => { b with damage := b.damage.merge a.damage }
  | none => a

def gather (found : Option (Attack α)) (as : List (Attack α)) : Option (Attack α) :=
  as.foldl (fun found a => some (joined found a)) found

/-- The attack is the first of some attacks, with the damage of them all. -/
structure Gathers (a : Attack α) (as : List (Attack α)) : Prop where
  packets : a.damage.packets = as.flatMap (·.damage.packets)
  weaponCrit : a.damage.weaponCrit = as.any (·.damage.weaponCrit)
  skillCrit : a.damage.skillCrit = as.any (·.damage.skillCrit)
  elementCrits : ∀ x, a.damage.elementCrits x = as.any (·.damage.elementCrits x)
  dealer : as.head?.map dealer = some a.dealer

/-- Attacks of one entity that agree in all but the order of their packets. -/
structure Alike (a b : Attack α) : Prop where
  blend : a.damage.Blend b.damage
  dealer : a.dealer = b.dealer

theorem Alike.refl (a : Attack α) : a.Alike a := ⟨⟨List.Perm.refl _, rfl, rfl, rfl⟩, rfl⟩

theorem Gathers.single (a : Attack α) : a.Gathers [a] := by
  constructor <;> simp

theorem Gathers.joined {b : Attack α} {bs : List (Attack α)} (h : b.Gathers bs) (a : Attack α) :
    (joined (some b) a).Gathers (bs ++ [a]) where
  packets := by simp [Attack.joined, Damage.merge, h.packets]
  weaponCrit := by simp [Attack.joined, Damage.merge, h.weaponCrit]
  skillCrit := by simp [Attack.joined, Damage.merge, h.skillCrit]
  elementCrits x := by simp [Attack.joined, Damage.merge, h.elementCrits]
  dealer := by
    have hd := h.dealer
    cases bs with
    | nil => simp at hd
    | cons c cs => simpa [Attack.joined, Attack.dealer] using hd

theorem Gathers.gather {b : Attack α} {bs : List (Attack α)} (h : b.Gathers bs) (as : List (Attack α)) :
    ∃ a, gather (some b) as = some a ∧ a.Gathers (bs ++ as) := by
  induction as generalizing b bs with
  | nil => exact ⟨b, rfl, by simpa using h⟩
  | cons c as ih =>
    obtain ⟨a, ha, hg⟩ := ih (h.joined c)
    exact ⟨a, ha, by simpa using hg⟩

theorem gather_cases (found : Option (Attack α)) (as : List (Attack α)) :
    found = none ∧ as = [] ∨ ∃ a, gather found as = some a ∧ a.Gathers (found.toList ++ as) := by
  cases found with
  | some b => exact Or.inr ((Gathers.single b).gather as)
  | none =>
    cases as with
    | nil => exact Or.inl ⟨rfl, rfl⟩
    | cons c as => exact Or.inr ((Gathers.single c).gather as)

theorem Gathers.alike {a b : Attack α} {as bs : List (Attack α)} (ha : a.Gathers as) (hb : b.Gathers bs)
    (hp : as.Perm bs) (hd : a.dealer = b.dealer) : a.Alike b where
  blend :=
    { packets := by
        rw [ha.packets, hb.packets]
        exact hp.flatMap_right _
      weaponCrit := by rw [ha.weaponCrit, hb.weaponCrit, hp.any_eq]
      skillCrit := by rw [ha.skillCrit, hb.skillCrit, hp.any_eq]
      elementCrits := by
        funext x
        rw [ha.elementCrits, hb.elementCrits, hp.any_eq] }
  dealer := hd

/-- Attacks of one entity gather to the same, in whatever order they join what is found. -/
theorem gather_alike {as bs : List (Attack α)} (hp : as.Perm bs) (hd : ∀ a ∈ as, ∀ b ∈ as, a.dealer = b.dealer)
    (found : Option (Attack α)) : Option.Rel Alike (gather found as) (gather found bs) := by
  rcases gather_cases found as with ⟨rfl, rfl⟩ | ⟨a, ha, hga⟩
  · obtain rfl := hp.symm.eq_nil
    exact .none
  · rcases gather_cases found bs with ⟨rfl, rfl⟩ | ⟨b, hb, hgb⟩
    · obtain rfl := hp.eq_nil
      simp [gather] at ha
    · rw [ha, hb]
      refine .some (hga.alike hgb (hp.append_left _) ?_)
      -- What is found comes first in both orders; without it the first is some attack of the one entity.
      have hda := hga.dealer
      have hdb := hgb.dealer
      cases found with
      | some c =>
        simp only [Option.toList_some, List.cons_append, List.nil_append, List.head?_cons, Option.map_some,
          Option.some.injEq] at hda hdb
        rw [← hda, ← hdb]
      | none =>
        simp only [Option.toList_none, List.nil_append, Option.map_eq_some_iff] at hda hdb
        obtain ⟨x, hx, hxa⟩ := hda
        obtain ⟨y, hy, hyb⟩ := hdb
        rw [← hxa, ← hyb]
        exact hd x (List.mem_of_head? hx) y (hp.symm.subset (List.mem_of_head? hy))

end Attack

/-! ### The windows as a map -/

namespace Windows

variable {w : Windows α}

/-- The attack behind an open window. -/
def open? (w : Windows α) (k : WindowKey) : Option (Attack α) := (w.find? k).map w.attack

theorem isSome_open? {k : WindowKey} : (w.open? k).isSome ↔ k ∈ w.opened.map Prod.fst := by
  unfold open?
  cases h : w.find? k with
  | some r => simpa using ⟨r, mem_of_find? h⟩
  | none =>
    have hne : ∀ o ∈ w.opened, o.1 ≠ k := fun o ho => by
      have hk : k ≠ o.1 := by simpa using List.lookup_eq_none_iff.mp h o ho
      exact hk.symm
    simpa using fun r hr => hne _ hr rfl

/-- Windows with alike attacks behind every key have the same keys. -/
theorem keys_perm_of_alike {v : Windows α} (hw : w.Sound) (hv : v.Sound)
    (h : ∀ k, Option.Rel Attack.Alike (w.open? k) (v.open? k)) :
    (w.opened.map Prod.fst).Perm (v.opened.map Prod.fst) := by
  refine (List.perm_ext_iff_of_nodup hw.keys hv.keys).mpr fun k => ?_
  rw [← isSome_open?, ← isSome_open?]
  exact isSome_iff_of_rel (h k)

theorem find?_register_of_ne {j k : WindowKey} (h : j ≠ k) (a : Attack α) :
    (w.register k a).2.find? j = if k.tick ≤ j.tick then w.find? j else none := by
  rw [← find?_expire]
  cases hk : w.find? k with
  | some r =>
    rw [register_of_some hk]
    rfl
  | none =>
    have hne : (j == k) = false := beq_false_of_ne h
    rw [register_of_none hk]
    simp [find?, List.lookup_append, List.lookup_cons, hne]

/-- No attack stands behind two keys, so a contribution touches none but the one of its own key. -/
theorem attack_register_of_ne (hw : w.Sound) {j k : WindowKey} (h : j ≠ k) {s : AttackRef} (hs : w.find? j = some s)
    (a : Attack α) : (w.register k a).2.attack s = w.attack s := by
  cases hk : w.find? k with
  | some r =>
    have hne : s ≠ r := fun hsr => h (congrArg Prod.fst (hw.eq_of_ref_eq (mem_of_find? hs) (mem_of_find? hk) hsr))
    rw [register_of_some hk]
    exact attack_update_of_ne _ hne _
  | none =>
    have hlt : s < w.attacks.size := hw.given _ (mem_of_find? hs)
    rw [register_of_none hk]
    simp [attack, Array.getElem?_push, Nat.ne_of_lt hlt]

theorem open?_register_self (hw : w.Sound) (k : WindowKey) (a : Attack α) :
    (w.register k a).2.open? k = some (a.joined (w.open? k)) := by
  rw [open?, find?_register, Option.map_some]
  cases hk : w.find? k with
  | some r =>
    have hr : r < w.attacks.size := hw.given _ (mem_of_find? hk)
    rw [register_of_some hk, attack_update (w.expire k.tick) hr]
    simp [open?, hk, Attack.joined]
  | none =>
    rw [attack_register_of_none hk]
    simp [open?, hk, Attack.joined]

/-- A contribution joins what stands behind its key, leaves the windows of its tick and of later ones as they are, and
    drops those of earlier ticks. -/
theorem open?_register (hw : w.Sound) (k : WindowKey) (a : Attack α) (j : WindowKey) :
    (w.register k a).2.open? j =
      if j = k then some (a.joined (w.open? k)) else if k.tick ≤ j.tick then w.open? j else none := by
  by_cases hj : j = k
  · rw [if_pos hj, hj, open?_register_self hw]
  · rw [if_neg hj, open?, find?_register_of_ne hj]
    by_cases ht : k.tick ≤ j.tick
    · rw [if_pos ht, if_pos ht]
      exact Option.map_congr fun s hs => attack_register_of_ne hw hj hs a
    · rw [if_neg ht, if_neg ht, Option.map_none]

def registerAll (w : Windows α) (cs : List (WindowKey × Attack α)) : Windows α :=
  cs.foldl (fun w c => (w.register c.1 c.2).2) w

/-- What is contributed to a key. -/
def ownOf (k : WindowKey) (cs : List (WindowKey × Attack α)) : List (Attack α) :=
  (cs.filter fun c => c.1 = k).map Prod.snd

theorem Sound.registerAll (hw : w.Sound) (cs : List (WindowKey × Attack α)) : (w.registerAll cs).Sound := by
  induction cs generalizing w with
  | nil => exact hw
  | cons c cs ih => exact ih (hw.register c.1 c.2)

variable {t : Nat} {cs : List (WindowKey × Attack α)}

/-- After the contributions of a tick every window of the tick, and of later ones, holds what it held and what was
    contributed to it. -/
theorem open?_registerAll (hw : w.Sound) (hcs : ∀ c ∈ cs, c.1.tick = t) {k : WindowKey} (hk : t ≤ k.tick) :
    (w.registerAll cs).open? k = Attack.gather (w.open? k) (ownOf k cs) := by
  induction cs generalizing w with
  | nil => rfl
  | cons c cs ih =>
    obtain ⟨hc, hcs⟩ := List.forall_mem_cons.mp hcs
    have hopen := open?_register hw c.1 c.2 k
    rw [registerAll, List.foldl_cons, ← registerAll, ih (hw.register c.1 c.2) hcs, hopen]
    by_cases hown : c.1 = k
    · simp [ownOf, hown, Attack.gather]
    · simp [ownOf, hown, Ne.symm hown, hc, hk]

/-- The first contribution of a tick drops the windows of earlier ticks, and no contribution opens one. -/
theorem open?_registerAll_of_lt (hw : w.Sound) (hcs : ∀ c ∈ cs, c.1.tick = t) (hne : cs ≠ []) {k : WindowKey}
    (hk : k.tick < t) : (w.registerAll cs).open? k = none := by
  induction cs generalizing w with
  | nil => exact absurd rfl hne
  | cons c cs ih =>
    obtain ⟨hc, hcs⟩ := List.forall_mem_cons.mp hcs
    cases cs with
    | nil =>
      have hother : k ≠ c.1 := fun h => absurd (h ▸ hc) (Nat.ne_of_lt hk)
      simp only [registerAll, List.foldl_cons, List.foldl_nil]
      rw [open?_register hw, if_neg hother, if_neg (by omega)]
    | cons d ds => exact ih (hw.register c.1 c.2) hcs (by simp)

/-- The contributions of a tick, in whatever order they come, leave the same windows with attacks that are alike. -/
theorem registerAll_alike {cs' : List (WindowKey × Attack α)} (hw : w.Sound) (hcs : ∀ c ∈ cs, c.1.tick = t)
    (hp : cs.Perm cs') (hd : ∀ c ∈ cs, ∀ c' ∈ cs, c.1 = c'.1 → c.2.dealer = c'.2.dealer) (k : WindowKey) :
    Option.Rel Attack.Alike ((w.registerAll cs).open? k) ((w.registerAll cs').open? k) := by
  have hcs' : ∀ c ∈ cs', c.1.tick = t := fun c hc => hcs c (hp.symm.subset hc)
  rcases Nat.lt_or_ge k.tick t with hk | hk
  -- Windows of earlier ticks stay only if there is nothing to contribute.
  · cases cs with
    | nil =>
      obtain rfl := hp.symm.eq_nil
      cases (w.registerAll []).open? k with
      | none => exact .none
      | some a => exact .some (.refl a)
    | cons c cs =>
      have hne : cs' ≠ [] := by
        rintro rfl
        simpa using hp.length_eq
      rw [open?_registerAll_of_lt hw hcs (by simp) hk, open?_registerAll_of_lt hw hcs' hne hk]
      exact .none
  · rw [open?_registerAll hw hcs hk, open?_registerAll hw hcs' hk]
    refine Attack.gather_alike ((hp.filter _).map _) ?_ _
    intro a ha b hb
    obtain ⟨c, hc, rfl⟩ := List.mem_map.mp ha
    obtain ⟨c', hc', rfl⟩ := List.mem_map.mp hb
    obtain ⟨hc, hck⟩ := List.mem_filter.mp hc
    obtain ⟨hc', hck'⟩ := List.mem_filter.mp hc'
    exact hd c hc c' hc' ((of_decide_eq_true hck).trans (of_decide_eq_true hck').symm)

end Windows
end Fray
