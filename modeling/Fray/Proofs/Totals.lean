import Mathlib.Algebra.BigOperators.Group.Multiset.Basic
import Mathlib.Algebra.Order.BigOperators.Group.List
import Mathlib.Data.List.Forall2
import Mathlib.Tactic.Linarith
import Fray.Proofs.Editing
import Fray.Proofs.Exact

/-! What damage adds up to, over exact amounts. Every packet of damage that was made and edited is worth its raw value
    under the modifiers that were applied to it, in whatever order, and is worth something that is not negative. So the
    sums over elements and types are parts of one total, and contributions only add to it. -/

namespace Fray

/-! ### Lists -/

theorem forall₂_modify {β γ : Type} {R : β → γ → Prop} {xs : List β} {ys : List γ} (h : List.Forall₂ R xs ys)
    {f : β → β} {g : γ → γ} (i : Nat) (hfg : i < xs.length → ∀ x y, R x y → R (f x) (g y)) :
    List.Forall₂ R (xs.modify i f) (ys.modify i g) := by
  induction h generalizing i with
  | nil => simp
  | @cons x y xs ys hxy h ih =>
    cases i with
    | zero => exact .cons (hfg (Nat.zero_lt_succ _) x y hxy) h
    | succ i => exact .cons hxy (ih i fun hi => hfg (Nat.succ_lt_succ hi))

theorem sum_map_ite_eq_of_mem {κ : Type} [DecidableEq κ] {keys : List κ} (hn : keys.Nodup) {k : κ} (hk : k ∈ keys)
    (x : Rat) : (keys.map fun j => if j = k then x else 0).sum = x := by
  rw [List.sum_map_ite_eq, List.count_eq_one_of_mem hn hk]
  simp

/-- What is summed part by part is summed once, where every part has its place. -/
theorem sum_parts {β κ : Type} [DecidableEq κ] (part : β → κ) (worth : β → Rat) {keys : List κ} (hn : keys.Nodup)
    {xs : List β} (hk : ∀ x ∈ xs, part x ∈ keys) :
    (keys.map fun k => ((xs.filter fun x => part x = k).map worth).sum).sum = (xs.map worth).sum := by
  induction xs with
  | nil => simp
  | cons x xs ih =>
    obtain ⟨hx, hxs⟩ := List.forall_mem_cons.mp hk
    have hcons : ∀ k, (((x :: xs).filter fun x => part x = k).map worth).sum =
        (if k = part x then worth x else 0) + ((xs.filter fun x => part x = k).map worth).sum := by
      intro k
      by_cases h : part x = k
      · simp [h]
      · simp [h, Ne.symm h]
    simp only [hcons]
    rw [List.sum_map_add, sum_map_ite_eq_of_mem hn hx, ih hxs, List.map_cons, List.sum_cons]

/-! ### What a packet is worth -/

namespace Packet

section Made

variable {α : Type} [Amount α]

abbrev Modifiers (α : Type) := Multiset (Modifier α)

/-- What an edit adds to the modifiers of a packet. -/
def Edit.given : Edit α → Modifiers α
  | .add bonus => {.bonus bonus}
  | .scale coefficient => {.scale coefficient}
  | .setValue _ | .setElement _ => 0

/-- Packets as they are made and edited, with all modifiers that they were given. -/
inductive Made : Packet α → Modifiers α → Prop
  | new {value : α} {element : Option Element} {types : List DamageType} {p : Packet α}
    (h : Packet.new value element types = .ok p) : Made p 0
  | edit {p q : Packet α} {ms : Modifiers α} (hp : Made p ms) {e : Edit α} (h : p.edit e = .ok q) :
    Made q (ms + e.given)

variable {p : Packet α} {ms : Modifiers α}

theorem Made.plain {value : α} (hv : 0 ≤ value) (element : Option Element) (types : List DamageType) :
    Made (plain value element types) 0 := .new (new_eq_ok.mpr ⟨hv, rfl⟩)

theorem Made.act (hp : p.Made ms) {e : Edit α} (he : e.check = .ok ()) : Made (e.act p) (ms + e.given) :=
  hp.edit (edit_eq_ok.mpr ⟨he, rfl⟩)

end Made

def Modifier.added : Modifier Rat → Rat
  | bonus value => value
  | scale _ => 0

def Modifier.factor : Modifier Rat → Rat
  | bonus _ => 1
  | scale coefficient => coefficient

/-- What a raw value is worth under some modifiers. -/
def worth (value : Rat) (ms : Modifiers Rat) : Rat :=
  value * max (1 + (ms.map Modifier.added).sum) 0 * (ms.map Modifier.factor).prod

variable {p : Packet Rat} {ms : Modifiers Rat}

theorem final_eq (p : Packet Rat) : p.final = p.value * max (1 + p.bonus) 0 * p.scale := by
  rw [final, Amount.larger_eq_max]

/-- A packet holds the sum of its bonuses and the product of its scales, and neither its value nor its scale is ever
    negative. -/
theorem Made.numbers (h : Made p ms) : p.bonus = (ms.map Modifier.added).sum ∧
    p.scale = (ms.map Modifier.factor).prod ∧ 0 ≤ p.value ∧ 0 ≤ p.scale := by
  induction h with
  | new h =>
    obtain ⟨hv, rfl⟩ := new_eq_ok.mp h
    exact ⟨rfl, rfl, hv, zero_le_one⟩
  | @edit p q ms hp e h ih =>
    obtain ⟨hbonus, hscale, hvalue, hnonneg⟩ := ih
    obtain ⟨hcheck, rfl⟩ := edit_eq_ok.mp h
    simp only [Multiset.map_add, Multiset.sum_add, Multiset.prod_add, ← hbonus, ← hscale]
    cases e with
    | setValue value =>
      have hv : 0 ≤ value := checkValue_eq_ok.mp hcheck
      exact ⟨(add_zero _).symm, (mul_one _).symm, hv, hnonneg⟩
    | setElement element => exact ⟨(add_zero _).symm, (mul_one _).symm, hvalue, hnonneg⟩
    | add bonus =>
      exact ⟨by simp [Edit.act, Edit.given, Modifier.added], by simp [Edit.act, Edit.given, Modifier.factor], hvalue,
        hnonneg⟩
    | scale coefficient =>
      have hc : ¬ coefficient < 0 := checkCoefficient_eq_ok.mp hcheck
      exact ⟨by simp [Edit.act, Edit.given, Modifier.added], by simp [Edit.act, Edit.given, Modifier.factor], hvalue,
        mul_nonneg hnonneg (not_lt.mp hc)⟩

theorem Made.final_eq_worth (h : Made p ms) : p.final = worth p.value ms := by
  obtain ⟨hbonus, hscale, -, -⟩ := h.numbers
  rw [final_eq, worth, hbonus, hscale]

theorem Made.final_nonneg (h : Made p ms) : 0 ≤ p.final := by
  obtain ⟨-, -, hvalue, hscale⟩ := h.numbers
  rw [final_eq]
  exact mul_nonneg (mul_nonneg hvalue (le_max_right _ _)) hscale

end Packet

/-! ### Damage as it is made -/

namespace Damage

section Made

variable {α : Type} [Amount α]

/-- What packets were given, after a modifier for all that its scope reaches. -/
def given (scope : Scope) (m : Packet.Modifier α) (d : Damage α) (ms : List (Packet.Modifiers α)) :
    List (Packet.Modifiers α) :=
  List.zipWith (fun p m' => if scope.reaches p then m' + m.toPacket.given else m') d.packets ms

/-- Damage as it is made, edited and merged, with all modifiers that each of its packets was given. -/
inductive Made : Damage α → List (Packet.Modifiers α) → Prop
  | empty : Made empty []
  | new {value : α} {element : Option Element} {types : List DamageType} {d : Damage α}
    (h : Damage.new value element types = .ok d) : Made d [0]
  | add {d d' : Damage α} {ms : List (Packet.Modifiers α)} (hd : Made d ms) {value : α}
    {element : Option Element} {types : List DamageType} (h : d.edit (.add value element types) = .ok d') :
    Made d' (ms ++ [0])
  | addPacket {d d' : Damage α} {ms : List (Packet.Modifiers α)} (hd : Made d ms) {p : Packet α}
    {m : Packet.Modifiers α} (hp : p.Made m) (h : d.edit (.addPacket p) = .ok d') : Made d' (ms ++ [m])
  | modify {d d' : Damage α} {ms : List (Packet.Modifiers α)} (hd : Made d ms) {scope : Scope}
    {m : Packet.Modifier α} (h : d.edit (m.inScope scope) = .ok d') : Made d' (given scope m d ms)
  | packet {d d' : Damage α} {ms : List (Packet.Modifiers α)} (hd : Made d ms) {index : Nat}
    {e : Packet.Edit α} (h : d.edit (.packet index e) = .ok d') : Made d' (ms.modify index (· + e.given))
  /-- A packet is put in the place of another. -/
  | replace {d : Damage α} {ms : List (Packet.Modifiers α)} (hd : Made d ms) {p : Packet α}
    {m : Packet.Modifiers α} (hp : p.Made m) (index : Nat) :
    Made { d with packets := d.packets.set index p } (ms.set index m)
  | crits {d : Damage α} {ms : List (Packet.Modifiers α)} (hd : Made d ms) (weapon skill : Bool)
    (elements : Element → Bool) :
    Made { d with weaponCrit := weapon, skillCrit := skill, elementCrits := elements } ms
  | merge {d e : Damage α} {ms ns : List (Packet.Modifiers α)} (hd : Made d ms) (he : Made e ns) :
    Made (d.merge e) (ms ++ ns)

variable {d d' : Damage α} {ms : List (Packet.Modifiers α)}

/-- A modifier of a scope is for every packet within it what it is for the packet alone. -/
theorem forall₂_given {scope : Scope} {m : Packet.Modifier α} (hm : m.Accepted)
    (h : List.Forall₂ Packet.Made d.packets ms) :
    List.Forall₂ Packet.Made (d.editScope scope m.toPacket.act).packets (given scope m d ms) := by
  have hcheck : m.toPacket.check = .ok () := by
    cases m with
    | bonus value => rfl
    | scale coefficient => exact Packet.checkCoefficient_eq_ok.mpr hm
  simp only [editScope, given]
  generalize d.packets = ps at h
  induction h with
  | nil => exact .nil
  | @cons p b ps bs hpb h ih =>
    refine .cons ?_ ih
    dsimp only
    split
    · exact hpb.act hcheck
    · exact hpb

/-- However damage was made, each of its packets was made with the modifiers that it was given. -/
theorem Made.packets (h : d.Made ms) : List.Forall₂ Packet.Made d.packets ms := by
  induction h with
  | empty => exact .nil
  | new h =>
    obtain ⟨hv, rfl⟩ := new_eq_ok.mp h
    exact .cons (.plain hv _ _) .nil
  | add hd h ih =>
    obtain ⟨hv, rfl⟩ := edit_eq_ok.mp h
    exact List.rel_append ih (.cons (.plain (Packet.checkValue_eq_ok.mp hv) _ _) .nil)
  | addPacket hd hp h ih =>
    obtain ⟨-, rfl⟩ := edit_eq_ok.mp h
    exact List.rel_append ih (.cons hp .nil)
  | modify hd h ih =>
    obtain ⟨hm, rfl⟩ := Packet.Modifier.edit_inScope.mp h
    exact forall₂_given hm ih
  | @packet d d' ms hd i e h ih =>
    obtain ⟨hcheck, rfl⟩ := edit_eq_ok.mp h
    refine forall₂_modify ih i fun hi p m hp => hp.act ?_
    rwa [Edit.check, if_pos hi] at hcheck
  | @replace d ms hd p m hp i ih =>
    simp only [List.set_eq_modify]
    exact forall₂_modify ih i fun _ _ _ _ => hp
  | crits hd weapon skill elements ih => exact ih
  | merge hd he ih ih' => exact List.rel_append ih ih'

theorem Made.exists_made (h : d.Made ms) {p : Packet α} (hp : p ∈ d.packets) : ∃ m, p.Made m := by
  obtain ⟨i, hi, rfl⟩ := List.getElem_of_mem hp
  exact ⟨_, h.packets.get hi (h.packets.length_eq ▸ hi)⟩

end Made

/-! ### Elements, gathered in one pass -/

section Gathered

variable {α : Type} [Amount α]

/-- Adds a packet to what is known of its element. -/
def gather (m : Element → Option α) (p : Packet α) : Element → Option α :=
  match p.element with
  | some e => Function.update m e (some ((m e).getD 0 + p.final))
  | none => m

/-- The final damage of each element, of one pass over the packets. -/
def gathered (d : Damage α) : Element → Option α := d.packets.foldl gather fun _ => none

theorem foldl_gather (ps : List (Packet α)) (m : Element → Option α) (e : Element) :
    ps.foldl gather m e =
      if ps.any (·.isElement (some e)) then
        some (((ps.filter (·.isElement (some e))).map Packet.final).foldl (· + ·) ((m e).getD 0))
      else m e := by
  -- For whatever is known already, as more is known of an element with each of its packets.
  induction ps generalizing m with
  | nil => rfl
  | cons p ps ih =>
    rw [List.foldl_cons, ih]
    by_cases hp : p.isElement (some e)
    · have hm : gather m p e = some ((m e).getD 0 + p.final) := by
        simp [gather, show p.element = some e by simpa [Packet.isElement] using hp]
      simp only [hm, List.any_cons, List.filter_cons, hp, Bool.true_or, if_true, List.map_cons, List.foldl_cons]
      by_cases hps : ps.any (·.isElement (some e))
      · rw [if_pos hps, Option.getD_some]
      · have hnone : ps.filter (·.isElement (some e)) = [] := by simpa using hps
        rw [if_neg hps, hnone]
        rfl
    · have hm : gather m p e = m e := by
        unfold gather
        cases h : p.element with
        | none => rfl
        | some x =>
          refine Function.update_of_ne ?_ _ _
          rintro rfl
          exact hp (by simp [Packet.isElement, h])
      simp only [hm, List.any_cons, List.filter_cons, hp, Bool.false_or, Bool.false_eq_true, if_false]

omit [Amount α] in
theorem mem_elements {d : Damage α} {e : Element} : e ∈ d.elements ↔ ∃ p ∈ d.packets, p.element = some e := by
  simp [elements, hasElement, Packet.isElement, Element.mem_all]

/-- What is summed up for each element by itself is what one pass gathers. -/
theorem lookup_elemental (d : Damage α) (e : Element) : d.elemental.lookup e = d.gathered e := by
  rw [gathered, foldl_gather, elemental]
  by_cases h : d.packets.any (·.isElement (some e))
  · have he : e ∈ d.elements := List.mem_filter.mpr ⟨Element.mem_all e, h⟩
    rw [if_pos h, List.lookup_graph _ he]
    rfl
  · rw [if_neg h, List.lookup_eq_none_iff]
    simp only [List.mem_map]
    rintro _ ⟨x, hx, rfl⟩
    simp only [elements, List.mem_filter] at hx
    rw [bne_iff_ne]
    rintro rfl
    exact h hx.2

end Gathered

/-! ### Sums over damage -/

variable {d e : Damage Rat} {ms ns : List (Packet.Modifiers Rat)}

/-- The final values of the packets, added up. -/
def worth (d : Damage Rat) : Rat := (d.packets.map Packet.final).sum

theorem dealt_eq_max_worth (d : Damage Rat) : d.dealt = max d.worth (1 / 100) := d.dealt_eq

theorem worth_merge (d e : Damage Rat) : (d.merge e).worth = d.worth + e.worth := by
  rw [worth, merge, List.map_append, List.sum_append, worth, worth]

theorem sum_ofElement (d : Damage Rat) :
    d.ofElement none + (Element.all.map fun e => d.ofElement (some e)).sum = d.worth := by
  have hkeys : (none :: Element.all.map some).Nodup := by decide
  have hmem : ∀ p ∈ d.packets, p.element ∈ none :: Element.all.map some := by
    intro p _
    cases p.element with
    | none => exact List.mem_cons_self
    | some e => exact List.mem_cons_of_mem _ (List.mem_map_of_mem (Element.mem_all e))
  have hparts := sum_parts Packet.element Packet.final hkeys hmem
  rw [List.map_cons, List.sum_cons, List.map_map] at hparts
  simp only [ofElement, totalWhere_eq_sum, Packet.isElement]
  exact hparts

section Nonneg

variable (h : ∀ p ∈ d.packets, 0 ≤ p.final)
include h

theorem worth_nonneg : 0 ≤ d.worth := List.sum_nonneg (List.forall_mem_map.mpr h)

theorem ofType_nonneg (t : DamageType) : 0 ≤ d.ofType t := by
  rw [ofType, totalWhere_eq_sum]
  exact List.sum_nonneg (List.forall_mem_map.mpr fun p hp => h p (List.mem_of_mem_filter hp))

theorem ofType_le_worth (t : DamageType) : d.ofType t ≤ d.worth := by
  rw [ofType, totalWhere_eq_sum, worth]
  exact (List.filter_sublist.map _).sum_le_sum (List.forall_mem_map.mpr h)

end Nonneg

theorem ofType_of_not_hasType {t : DamageType} (h : d.hasType t = false) : d.ofType t = 0 := by
  have hnone : d.packets.filter (·.hasType t) = [] := by simpa [hasType] using h
  rw [ofType, totalWhere_eq_sum, hnone]
  rfl

/-- Packets that are appended do not lower what is dealt. -/
theorem dealt_le_of_append {ps : List (Packet Rat)} (h : e.packets = d.packets ++ ps) (hps : ∀ p ∈ ps, 0 ≤ p.final) :
    d.dealt ≤ e.dealt := by
  have hsum : 0 ≤ (ps.map Packet.final).sum := List.sum_nonneg (List.forall_mem_map.mpr hps)
  rw [dealt_eq, dealt_eq, h, List.map_append, List.sum_append]
  exact max_le_max_right _ (le_add_of_nonneg_right hsum)

theorem dealt_merge_le (he : 0 ≤ e.worth) : (d.merge e).dealt ≤ d.dealt + e.dealt := by
  simp only [dealt_eq_max_worth, worth_merge]
  refine max_le (add_le_add (le_max_left _ _) (le_max_left _ _)) ?_
  linarith [le_max_right d.worth (1 / 100), le_max_left e.worth (1 / 100)]

theorem le_dealt_merge (hd : 0 ≤ d.worth) (he : 0 ≤ e.worth) :
    d.dealt + e.dealt - Amount.leastDamage ≤ (d.merge e).dealt := by
  simp only [dealt_eq_max_worth, worth_merge, Amount.leastDamage_eq]
  have hsum := le_max_left (d.worth + e.worth) (1 / 100)
  have hleast := le_max_right (d.worth + e.worth) (1 / 100)
  rcases max_choice d.worth (1 / 100) with hd' | hd' <;> rcases max_choice e.worth (1 / 100) with he' | he' <;>
    rw [hd', he'] <;> linarith

/-- What damage adds up to, where each packet was given some modifiers. -/
structure Sums (d : Damage Rat) (ms : List (Packet.Modifiers Rat)) : Prop where
  /-- The order of its modifiers does not matter to a packet. -/
  packets : List.Forall₂ (fun p m => p.final = Packet.worth p.value m) d.packets ms
  final_nonneg : ∀ p ∈ d.packets, 0 ≤ p.final
  dealt : d.dealt = max d.worth Amount.leastDamage
  elements : d.ofElement none + (Element.all.map fun e => d.ofElement (some e)).sum = d.worth
  /-- The damage by element has the elements that occur, each once. -/
  elemental_keys : d.elemental.map Prod.fst = d.elements ∧ d.elements.Nodup ∧
    ∀ e, e ∈ d.elements ↔ ∃ p ∈ d.packets, p.element = some e
  elemental : ∀ e ∈ d.elements, (e, d.ofElement (some e)) ∈ d.elemental
  gathered : ∀ e, d.gathered e = d.elemental.lookup e
  ofType : ∀ t, 0 ≤ d.ofType t ∧ d.ofType t ≤ d.worth ∧ (0 < d.ofType t → d.hasType t)
  add : ∀ value element types d', d.edit (.add value element types) = .ok d' → d.dealt ≤ d'.dealt
  addPacket : ∀ p m d', Packet.Made p m → d.edit (.addPacket p) = .ok d' → d.dealt ≤ d'.dealt
  merge : ∀ e ns, Made e ns → d.dealt ≤ (d.merge e).dealt ∧ d.dealt + e.dealt - Amount.leastDamage ≤ (d.merge e).dealt ∧
    (d.merge e).dealt ≤ d.dealt + e.dealt

theorem Made.final_nonneg (h : Made d ms) : ∀ p ∈ d.packets, 0 ≤ p.final := by
  intro p hp
  obtain ⟨m, hm⟩ := h.exists_made hp
  exact hm.final_nonneg

/-- However damage was made, edited and merged, it adds up. -/
theorem Made.sums (h : Made d ms) : Sums d ms where
  packets := h.packets.imp fun p m hp => hp.final_eq_worth
  final_nonneg := h.final_nonneg
  dealt := d.dealt_eq
  elements := d.sum_ofElement
  elemental_keys := by
    refine ⟨?_, List.Nodup.filter _ (by decide), fun e => mem_elements⟩
    rw [Damage.elemental, List.map_map]
    exact List.map_id _
  elemental e he := by
    rw [Damage.ofElement, totalWhere_eq_sum, ← Amount.sum_eq_sum]
    exact List.mem_map_of_mem he
  gathered e := (d.lookup_elemental e).symm
  ofType t := by
    refine ⟨ofType_nonneg h.final_nonneg t, ofType_le_worth h.final_nonneg t, fun hpos => ?_⟩
    by_contra hn
    exact hpos.ne' (ofType_of_not_hasType (Bool.eq_false_iff.mpr hn))
  add value element types d' hedit := by
    obtain ⟨hv, rfl⟩ := edit_eq_ok.mp hedit
    refine dealt_le_of_append rfl ?_
    have hmade := Packet.Made.plain (Packet.checkValue_eq_ok.mp hv) element types
    simpa using hmade.final_nonneg
  addPacket p m d' hp hedit := by
    obtain ⟨-, rfl⟩ := edit_eq_ok.mp hedit
    exact dealt_le_of_append rfl (by simpa using hp.final_nonneg)
  merge e ns he := by
    have hd := worth_nonneg h.final_nonneg
    have he' := worth_nonneg he.final_nonneg
    exact ⟨dealt_le_of_append rfl he.final_nonneg, le_dealt_merge hd he', dealt_merge_le he'⟩

theorem sums_of_burning_blade :
    ∃ d ms, Made d ms ∧ Sums d ms ∧ d.ofElement none = 12 ∧ d.ofElement (some .fire) = 6 ∧ d.dealt = 18 := by
  have hblade : Made _ _ := .new (show Damage.new (10 : Rat) none [.weapon, .physical] = .ok _ from rfl)
  have hfire := hblade.add (show Damage.edit _ (.add 4 (some .fire) []) = .ok _ from rfl)
  have hsharp := @Made.modify _ _ _ _ _ hfire (.type .weapon) (.bonus (1 / 5))
    (Packet.Modifier.edit_inScope.mpr ⟨trivial, rfl⟩)
  have hhot := @Made.modify _ _ _ _ _ hsharp (.element (some .fire)) (.scale (3 / 2))
    (Packet.Modifier.edit_inScope.mpr ⟨show ¬ (3 / 2 : Rat) < 0 by decide +kernel, rfl⟩)
  exact ⟨_, _, hhot, hhot.sums, by decide +kernel, by decide +kernel, by decide +kernel⟩

end Damage

end Fray
