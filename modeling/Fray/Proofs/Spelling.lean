import Mathlib.Data.List.Forall2
import Fray.Proofs.Action
import Fray.Proofs.Association

/-! Spellings of one name. Lower case settles every character that it writes, so a name that is spelled again by its own
    text stays as it is; and in the letters of ASCII neither case nor the kind of gap tells two names apart. Whatever is
    registered under a name is found under each of its spellings. -/

namespace Fray
namespace Text

/-- A character that lower case leaves as it is, wherever it stands. -/
def Settled (c : Char) : Prop := c ≠ 'Σ' ∧ lowerChar c = [c]

instance (c : Char) : Decidable (Settled c) := inferInstanceAs (Decidable (_ ∧ _))

/-! ### Runs of letters -/

namespace CaseRun

/-- The lower case of the first letter of a run. -/
def low (r : CaseRun) : Nat := (r.first + r.shift).toNat

/-- The lower case of the last letter of a run. -/
def high (r : CaseRun) : Nat := (r.last + r.shift).toNat

/-- No lower case letter of `r` stands in `r'`: they lie apart, or alternate with it, or there is only one. -/
def misses (r r' : CaseRun) : Bool :=
  Nat.blt r.high r'.first || Nat.blt r'.last r.low || r.step == r'.step && r.low % r.step != r'.first % r.step ||
    r.first == r.last && !r'.contains r.low

/-- The lower case letters of a run are characters, and none of them is an upper case letter outside the runs: one of
    ASCII, or the dotted capital I. -/
def isSound (r : CaseRun) : Bool :=
  0 < r.step && 0 ≤ r.first + r.shift && (r.high < 65 || 90 < r.low) &&
    (r.high < 0xD800 || 0xDFFF < r.low && r.high < 0x110000) &&
    (r.high < 0x130 || 0x130 < r.low || r.step = 2 && r.low % 2 = 1)

variable {r r' : CaseRun} {c : Nat}

/-- The lower case of a letter of a run lies between those of the first and the last, in as many steps. -/
theorem exists_of_contains (hr : r.isSound = true) (h : r.contains c = true) :
    ∃ i, (c + r.shift).toNat = r.low + r.step * i ∧ r.low + r.step * i ≤ r.high ∧
      (r.first = r.last → i = 0) := by
  simp only [isSound, Bool.and_eq_true, decide_eq_true_eq] at hr
  simp only [contains, Bool.and_eq_true, decide_eq_true_eq, beq_iff_eq] at h
  obtain ⟨⟨hfirst, hlast⟩, hstep⟩ := h
  obtain ⟨i, hi⟩ := Nat.dvd_of_mod_eq_zero hstep
  have hpos : 0 ≤ r.first + r.shift := hr.1.1.1.2
  refine ⟨i, ?_, ?_, ?_⟩
  · rw [← hi]
    simp only [low]
    omega
  · rw [← hi]
    simp only [low, high]
    omega
  · intro heq
    have hzero : r.step * i = 0 := by omega
    exact (Nat.mul_eq_zero.mp hzero).resolve_left (by omega)

theorem not_contains_of_misses (hr : r.isSound = true) (h : r.contains c = true) (hm : r.misses r' = true) :
    r'.contains (c + r.shift).toNat = false := by
  obtain ⟨i, himage, hhigh, hsingle⟩ := exists_of_contains hr h
  rw [himage]
  simp only [misses, Bool.or_eq_true, Bool.and_eq_true, Nat.blt_eq, beq_iff_eq, bne_iff_ne, ne_eq,
    Bool.not_eq_true'] at hm
  rcases hm with ((hlt | hlt) | ⟨hstep, hmod⟩) | ⟨heq, hnot⟩
  · simp only [contains, Bool.and_eq_false_iff, decide_eq_false_iff_not]
    omega
  · simp only [contains, Bool.and_eq_false_iff, decide_eq_false_iff_not]
    omega
  · rw [Bool.eq_false_iff]
    intro hc
    simp only [contains, Bool.and_eq_true, decide_eq_true_eq, beq_iff_eq] at hc
    obtain ⟨⟨hle, -⟩, hdvd⟩ := hc
    rw [← hstep] at hdvd
    obtain ⟨k, hk⟩ := Nat.dvd_of_mod_eq_zero hdvd
    have hmeet : r.low + r.step * i = r'.first + r.step * k := by omega
    have hsame := congrArg (· % r.step) hmeet
    simp only [Nat.add_mul_mod_self_left] at hsame
    exact hmod hsame
  · rw [hsingle heq, Nat.mul_zero, Nat.add_zero]
    exact hnot

/-- Nothing that the runs have comes before this. -/
def lowest (rs : List CaseRun) : Nat := rs.foldr (fun r n => min r.first n) 0x110000

/-- Nothing that the runs have comes after this. -/
def highest (rs : List CaseRun) : Nat := rs.foldr (fun r n => max r.last n) 0

/-- Whether `r` misses all of these. Where none of them comes near that is known at once; else each half is asked. -/
def missesAll (r : CaseRun) : Nat → List CaseRun → Bool
  | 0, rs => rs.all r.misses
  | k + 1, rs => Nat.blt r.high (lowest rs) || Nat.blt (highest rs) r.low ||
      missesAll r k (rs.take (rs.length / 2)) && missesAll r k (rs.drop (rs.length / 2))

variable {rs : List CaseRun}

theorem lowest_le (h : r ∈ rs) : lowest rs ≤ r.first := by
  induction rs with
  | nil => exact absurd h List.not_mem_nil
  | cons r' rs ih =>
    rcases List.mem_cons.mp h with rfl | h
    · exact Nat.min_le_left _ _
    · exact Nat.le_trans (Nat.min_le_right _ _) (ih h)

theorem le_highest (h : r ∈ rs) : r.last ≤ highest rs := by
  induction rs with
  | nil => exact absurd h List.not_mem_nil
  | cons r' rs ih =>
    rcases List.mem_cons.mp h with rfl | h
    · exact Nat.le_max_left _ _
    · exact Nat.le_trans (ih h) (Nat.le_max_right _ _)

theorem misses_of_missesAll {k : Nat} (h : r.missesAll k rs = true) (h' : r' ∈ rs) : r.misses r' = true := by
  induction k generalizing rs with
  | zero => exact List.all_eq_true.mp h r' h'
  | succ k ih =>
    simp only [missesAll, Bool.or_eq_true, Bool.and_eq_true, Nat.blt_eq] at h
    rcases h with (hlow | hhigh) | ⟨hfront, hback⟩
    · simp [misses, Nat.lt_of_lt_of_le hlow (lowest_le h')]
    · simp [misses, Nat.lt_of_le_of_lt (le_highest h') hhigh]
    · rw [← List.take_append_drop (rs.length / 2) rs] at h'
      rcases List.mem_append.mp h' with h' | h'
      · exact ih hfront h'
      · exact ih hback h'

end CaseRun

/-! ### Letters of ASCII, and letters that no run gives -/

theorem lower_of_ascii {c : Char} (h : c.toNat < 128) :
    lowerChar c = [c.toLower] ∧ Settled c.toLower ∧ c.toLower.toNat < 128 := by
  have hall : ∀ n < 128, lowerChar (Char.ofNat n) = [(Char.ofNat n).toLower] ∧ Settled (Char.ofNat n).toLower ∧
      (Char.ofNat n).toLower.toNat < 128 := by decide +kernel
  have hc := hall c.toNat h
  rwa [Char.ofNat_toNat] at hc

theorem lowerFrom_cons_of_ascii {c : Char} (h : c.toNat < 128) (before rest : List Char) :
    lowerFrom before (c :: rest) = c.toLower :: lowerFrom (c :: before) rest := by
  have hsigma : c ≠ 'Σ' := by
    rintro rfl
    exact absurd h (by decide)
  rw [lowerFrom, if_neg hsigma, (lower_of_ascii h).1, List.singleton_append]

/-- The sigmas, and the dot that is left of the dotted capital I. -/
theorem sigmas_and_dot :
    lowerCode 'Σ'.toNat ≠ 'Σ'.toNat ∧ Settled 'ς' ∧ Settled 'σ' ∧ Settled '\u0307' := by decide +kernel

/-! ### Lower case is settled -/

theorem checked_of_mem {r : CaseRun} (h : r ∈ caseRuns) : r.isSound = true ∧ ∀ r' ∈ caseRuns, r.misses r' = true := by
  -- Five halvings leave half a dozen runs to be looked at one by one.
  have hall : (caseRuns.all fun r => r.isSound && r.missesAll 5 caseRuns) = true := by decide +kernel
  obtain ⟨hsound, hmisses⟩ := Bool.and_eq_true_iff.mp (List.all_eq_true.mp hall r h)
  exact ⟨hsound, fun r' h' => CaseRun.misses_of_missesAll hmisses h'⟩

theorem lowerCode_of_none {c : Nat} (hc : 128 ≤ c) (h : ∀ r ∈ caseRuns, r.contains c = false) : lowerCode c = c := by
  have hnone : caseRuns.find? (·.contains c) = none := List.find?_eq_none.mpr fun r hr => by simp [h r hr]
  simp [lowerCode, Nat.not_lt.mpr hc, hnone]

/-- A letter that is its own lower case is settled, but for the dotted capital I. -/
theorem settled_of_lowerCode {n : Nat} (hv : n.isValidChar) (hn : lowerCode n = n) (hd : n ≠ 0x130) :
    Settled (Char.ofNat n) := by
  have hnat : (Char.ofNat n).toNat = n := by
    rw [Char.ofNat, dif_pos hv]
    rfl
  have hplain : Char.ofNat n ≠ 'İ' := by
    intro heq
    rw [heq] at hnat
    exact hd hnat.symm
  constructor
  · intro heq
    rw [heq] at hnat
    exact sigmas_and_dot.1 (hnat ▸ hn)
  · rw [lowerChar, if_neg hplain, hnat, hn]

/-- A lower case letter that a run gives has no other lower case. -/
theorem settled_of_run {c : Nat} {r : CaseRun} (hr : r ∈ caseRuns) (hc : r.contains c = true) :
    Settled (Char.ofNat (c + r.shift).toNat) := by
  obtain ⟨hsound, hall⟩ := checked_of_mem hr
  have hmisses : ∀ r' ∈ caseRuns, r'.contains (c + r.shift).toNat = false := fun r' hr' =>
    CaseRun.not_contains_of_misses hsound hc (hall r' hr')
  obtain ⟨i, himage, hhigh, -⟩ := CaseRun.exists_of_contains hsound hc
  rw [himage] at hmisses ⊢
  simp only [CaseRun.isSound, Bool.and_eq_true, Bool.or_eq_true, decide_eq_true_eq] at hsound
  obtain ⟨⟨⟨-, hascii⟩, hvalid⟩, hdotted⟩ := hsound
  refine settled_of_lowerCode ?_ ?_ ?_
  · simp only [Nat.isValidChar]
    omega
  · by_cases hlt : r.low + r.step * i < 128
    · rw [lowerCode, if_pos hlt, if_neg (by omega)]
    · exact lowerCode_of_none (by omega) hmisses
  · rcases hdotted with hdotted | ⟨hstep, hodd⟩
    · omega
    · rw [hstep]
      omega

theorem settled_of_mem_lowerChar {c d : Char} (hc : c ≠ 'Σ') (h : d ∈ lowerChar c) : Settled d := by
  by_cases hlt : c.toNat < 128
  · obtain ⟨hlower, hsettled, -⟩ := lower_of_ascii hlt
    rw [hlower] at h
    obtain rfl := List.mem_singleton.mp h
    exact hsettled
  · unfold lowerChar at h
    split at h
    · rcases List.mem_pair.mp h with rfl | rfl
      · exact (lower_of_ascii (c := 'i') (by decide)).2.1
      · exact sigmas_and_dot.2.2.2
    · next hplain =>
      obtain rfl := List.mem_singleton.mp h
      cases hrun : caseRuns.find? fun r => r.contains c.toNat with
      | some r =>
        rw [lowerCode, if_neg hlt, hrun]
        exact settled_of_run (List.mem_of_find?_eq_some hrun) (List.find?_eq_some_iff_append.mp hrun).1
      | none =>
        have hself : Char.ofNat (lowerCode c.toNat) = c := by rw [lowerCode, if_neg hlt, hrun, Char.ofNat_toNat]
        rw [hself]
        exact ⟨hc, by rw [lowerChar, if_neg hplain, hself]⟩

theorem settled_of_mem_lowerFrom {before cs : List Char} {d : Char} (h : d ∈ lowerFrom before cs) : Settled d := by
  induction cs generalizing before with
  | nil => exact absurd h List.not_mem_nil
  | cons c rest ih =>
    rw [lowerFrom] at h
    rcases List.mem_append.mp h with h | h
    · split at h
      · obtain ⟨-, hlast, hother, -⟩ := sigmas_and_dot
        obtain rfl := List.mem_singleton.mp h
        split
        · exact hlast
        · exact hother
      · next hc => exact settled_of_mem_lowerChar hc h
    · exact ih h

theorem lowerFrom_of_settled {cs : List Char} (h : ∀ c ∈ cs, Settled c) (before : List Char) :
    lowerFrom before cs = cs := by
  induction cs generalizing before with
  | nil => rfl
  | cons c rest ih =>
    obtain ⟨⟨hsigma, hlower⟩, hrest⟩ := List.forall_mem_cons.mp h
    rw [lowerFrom, if_neg hsigma, hlower, ih hrest, List.singleton_append]

theorem lower_of_settled {s : String} (h : ∀ c ∈ s.toList, Settled c) : lower s = s := by
  rw [lower, lowerFrom_of_settled h, String.ofList_toList]

end Text

namespace SkillId

open Text

/-! ### One name, many spellings -/

theorem toList_ofText (s : String) : (ofText s).text.toList = (lowerFrom [] s.toList).map joinWords := by
  simp [ofText, lower]

theorem settled_joinWords {c : Char} (h : Settled c) : Settled (joinWords c) := by
  unfold joinWords
  split
  · exact (lower_of_ascii (c := '_') (by decide)).2.1
  · exact h

theorem settled_of_mem_ofText {s : String} {c : Char} (h : c ∈ (ofText s).text.toList) :
    Settled c ∧ c ≠ '-' ∧ c ≠ ' ' := by
  rw [toList_ofText] at h
  obtain ⟨d, hd, rfl⟩ := List.mem_map.mp h
  refine ⟨settled_joinWords (settled_of_mem_lowerFrom hd), ?_⟩
  unfold joinWords
  split
  · decide
  · next hgap => exact not_or.mp hgap

theorem ofText_text_ofText (s : String) : ofText (ofText s).text = ofText s := by
  have hsame : ∀ c ∈ (ofText s).text.toList, joinWords c = c := by
    intro c hc
    obtain ⟨-, hdash, hspace⟩ := settled_of_mem_ofText hc
    exact if_neg (not_or.mpr ⟨hdash, hspace⟩)
  have hlower : lower (ofText s).text = (ofText s).text :=
    lower_of_settled fun c hc => (settled_of_mem_ofText hc).1
  have hmap : (ofText s).text.map joinWords = (ofText s).text := by
    rw [← String.toList_inj, String.toList_map, List.map_congr_left hsame, List.map_id']
  rw [ofText, hlower, hmap]

/-- What may stand between the words of a name. -/
def gaps : List Char := ['-', ' ', '_']

/-- Two characters that spell the same: gaps, or a letter of ASCII in either case. -/
inductive Respells (c d : Char) : Prop
  | gap (hc : c ∈ gaps) (hd : d ∈ gaps)
  | case (h : c.toLower = d.toLower)

theorem gap_spelled {c : Char} (hc : c ∈ gaps) : joinWords c.toLower = '_' ∧ c.toNat < 128 := by
  simp only [gaps, List.mem_cons, List.not_mem_nil, or_false] at hc
  rcases hc with rfl | rfl | rfl <;> decide

theorem Respells.joined {c d : Char} (h : Respells c d) : joinWords c.toLower = joinWords d.toLower := by
  cases h with
  | gap hc hd => rw [(gap_spelled hc).1, (gap_spelled hd).1]
  | case h => rw [h]

theorem toLower_of_not_ascii {c : Char} (h : ¬ c.toNat < 128) : c.toLower = c := by
  have hlate : ¬ c.val ≤ 'Z'.val := by
    rw [UInt32.le_iff_toNat_le]
    show ¬ c.toNat ≤ 90
    omega
  exact dif_neg fun hc => hlate hc.2

theorem Respells.ascii {c d : Char} (h : Respells c d) (hc : c.toNat < 128) : d.toNat < 128 := by
  cases h with
  | gap _ hd => exact (gap_spelled hd).2
  | case h =>
    by_contra hd
    obtain ⟨-, -, hlower⟩ := lower_of_ascii hc
    rw [h, toLower_of_not_ascii hd] at hlower
    exact hd hlower

theorem map_joinWords_of_respells {cs ds : List Char} (h : List.Forall₂ Respells cs ds)
    (hc : ∀ c ∈ cs, c.toNat < 128) (before before' : List Char) :
    (lowerFrom before cs).map joinWords = (lowerFrom before' ds).map joinWords := by
  induction h generalizing before before' with
  | nil => rfl
  | @cons c d cs ds hcd _ ih =>
    obtain ⟨hc, hrest⟩ := List.forall_mem_cons.mp hc
    rw [lowerFrom_cons_of_ascii hc, lowerFrom_cons_of_ascii (hcd.ascii hc), List.map_cons, List.map_cons, hcd.joined,
      ih hrest]

theorem ofText_eq_of_respells {s t : String} (hs : ∀ c ∈ s.toList, c.toNat < 128)
    (h : List.Forall₂ Respells s.toList t.toList) : ofText s = ofText t := by
  refine congrArg SkillId.mk (String.toList_inj.mp ?_)
  show (ofText s).text.toList = (ofText t).text.toList
  rw [toList_ofText, toList_ofText]
  exact map_joinWords_of_respells h hs [] []

end SkillId

/-! ### What is registered under a name -/

theorem Registry.get?_register {β : Type} (r : Registry β) (name name' : String) (b : β) :
    (r.register name b).2.get? name' = if name' = name then some b else r.get? name' := by
  simp only [Registry.get?, Registry.register, List.lookup_cons, lookup_filter_ne]
  by_cases h : name' = name
  · simp [h]
  · simp [h, beq_false_of_ne h]

/-- The last element that gives something gives `b`. -/
def LastGives {β γ : Type} (f : γ → Option β) (xs : List γ) (b : β) : Prop :=
  ∃ pre x post, xs = pre ++ x :: post ∧ f x = some b ∧ ∀ y ∈ post, f y = none

theorem findSome?_reverse_eq_some {β γ : Type} {f : γ → Option β} {xs : List γ} {b : β} :
    xs.reverse.findSome? f = some b ↔ LastGives f xs b := by
  rw [List.findSome?_eq_some_iff]
  constructor
  · rintro ⟨post, x, pre, hxs, hx, hpost⟩
    refine ⟨pre.reverse, x, post.reverse, ?_, hx, fun y hy => hpost y (List.mem_reverse.mp hy)⟩
    rw [List.reverse_eq_iff.mp hxs]
    simp
  · rintro ⟨pre, x, post, rfl, hx, hpost⟩
    exact ⟨post.reverse, x, pre.reverse, by simp, hx, fun y hy => hpost y (List.mem_reverse.mp hy)⟩

/-- What a registry answers under a name: what was registered last under it, of all that was registered. -/
structure Registry.Answers {α β γ : Type} (r : Registry β) (kind : String) (id : SkillId) (named : γ → Option β)
    (xs : List γ) : Prop where
  found : ∀ b, r.get? id.text = some b ↔ LastGives named xs b
  absent : r.get? id.text = none ↔ ∀ x ∈ xs, named x = none
  required : ∀ b, (r.require id.text : Except (Fault α) β) = .ok b ↔ LastGives named xs b
  missing : ∀ fault : Fault α, r.require id.text = .error fault ↔
    (∀ x ∈ xs, named x = none) ∧ fault = .missing kind id.text

theorem Registry.answers_of_get? {α β γ : Type} {r : Registry β} {kind : String} {id : SkillId} {named : γ → Option β}
    {xs : List γ} (hkind : r.kind = kind) (h : r.get? id.text = xs.reverse.findSome? named) :
    r.Answers (α := α) kind id named xs := by
  have hfound : ∀ b, r.get? id.text = some b ↔ LastGives named xs b := fun b => by
    rw [h, findSome?_reverse_eq_some]
  have habsent : r.get? id.text = none ↔ ∀ x ∈ xs, named x = none := by
    rw [h, List.findSome?_eq_none_iff]
    simp
  refine ⟨hfound, habsent, fun b => ?_, fun fault => ?_⟩
  · rw [← hfound, Registry.require]
    cases r.get? id.text <;> simp
  · rw [← habsent, Registry.require]
    cases r.get? id.text <;> simp [hkind, eq_comm]

namespace World

open Act

variable {α η : Type}

/-- A handler that is registered under its name, or a skill under the name of its handler. The name may be spelled in
    any way. -/
inductive Registration (α : Type) where
  | handler (name : String) (extra : List String) (ref : HandlerRef)
  | skill (name : String) (extra : List String) (ref : HandlerRef) (parameters : List (String × α))

namespace Registration

def act : Registration α → Act α η Unit
  | handler name extra ref => registerHandler ⟨.new name extra, ref⟩
  | skill name extra ref parameters => registerSkill ⟨⟨.new name extra, ref⟩, parameters⟩

/-- The handler that is registered under a name. -/
def handlerOf (id : SkillId) : Registration α → Option Handler
  | handler name extra ref => if .ofText name = id then some ⟨.new name extra, ref⟩ else none
  | skill _ _ _ _ => none

/-- The skill that is registered under a name. -/
def skillOf (id : SkillId) : Registration α → Option (Skill α)
  | handler _ _ _ => none
  | skill name extra ref parameters => if .ofText name = id then some ⟨⟨.new name extra, ref⟩, parameters⟩ else none

theorem after_handler (name : String) (extra : List String) (ref : HandlerRef) (w : World α η) :
    ∃ j, after (act (.handler name extra ref)) w =
      { w with
        handlers := (w.handlers.register (SkillId.ofText name).text ⟨.new name extra, ref⟩).2
        journal := j } := by
  simp only [act, registerHandler, after_bind, after_set, after_ite, after_pure]
  split
  · exact ⟨_, rfl⟩
  · exact ⟨w.journal, rfl⟩

theorem get?_ofName {β : Type} (r : Registry β) (name : String) (id : SkillId) (b : β) :
    (r.register (SkillId.ofText name).text b).2.get? id.text =
      (if .ofText name = id then some b else none).or (r.get? id.text) := by
  obtain ⟨text⟩ := id
  rw [Registry.get?_register]
  by_cases h : text = (SkillId.ofText name).text
  · subst h
    simp
  · have hne : SkillId.ofText name ≠ ⟨text⟩ := by
      rintro heq
      exact h (congrArg SkillId.text heq).symm
    simp [h, hne]

theorem handlers_act (id : SkillId) (r : Registration α) (w : World α η) :
    (after r.act w).handlers.get? id.text = (r.handlerOf id).or (w.handlers.get? id.text) := by
  cases r with
  | handler name extra ref =>
    obtain ⟨j, hj⟩ := after_handler name extra ref w
    rw [hj]
    exact get?_ofName _ _ _ _
  | skill name extra ref parameters => rfl

theorem skills_act (id : SkillId) (r : Registration α) (w : World α η) :
    (after r.act w).skills.get? id.text = (r.skillOf id).or (w.skills.get? id.text) := by
  cases r with
  | handler name extra ref =>
    obtain ⟨j, hj⟩ := after_handler name extra ref w
    rw [hj]
    rfl
  | skill name extra ref parameters => exact get?_ofName _ _ _ _

theorem kinds_act (r : Registration α) (w : World α η) :
    (after r.act w).handlers.kind = w.handlers.kind ∧ (after r.act w).skills.kind = w.skills.kind := by
  cases r with
  | handler name extra ref =>
    obtain ⟨j, hj⟩ := after_handler name extra ref w
    rw [hj]
    exact ⟨rfl, rfl⟩
  | skill name extra ref parameters => exact ⟨rfl, rfl⟩

end Registration

open Registration

/-- Where each registration comes before what was there, the last of all comes first. -/
theorem registrations_last {β : Type} (look : World α η → Option β) {named : Registration α → Option β}
    (h : ∀ (r : Registration α) (w : World α η), look (after r.act w) = (named r).or (look w))
    (rs : List (Registration α)) (w : World α η) :
    look (after (rs.forM act) w) = (rs.reverse.findSome? named).or (look w) := by
  induction rs generalizing w with
  | nil => rfl
  | cons r rs ih =>
    show look (after (rs.forM act) (after r.act w)) = _
    rw [ih, h, List.reverse_cons, List.findSome?_append, Option.or_assoc]
    cases hr : named r <;> simp [hr]

theorem kinds_registrations (rs : List (Registration α)) (w : World α η) :
    (after (rs.forM act) w).handlers.kind = w.handlers.kind ∧ (after (rs.forM act) w).skills.kind = w.skills.kind := by
  have hlasting : Lasting fun u v : World α η => v.handlers.kind = u.handlers.kind ∧ v.skills.kind = u.skills.kind :=
    ⟨fun _ => ⟨rfl, rfl⟩, fun h h' => ⟨h'.1.trans h.1, h'.2.trans h.2⟩⟩
  exact hlasting.forM (fun r _ w => kinds_act r w) w

/-- A new world after some registrations. -/
def registered (host : η) (c : Config) (rs : List (Registration α)) : World α η :=
  after (rs.forM act) (.new host c)

end World

namespace SkillId

/-- A name is one text under all its spellings, and under each of them is found what was registered last. -/
structure Canonical (α η : Type) : Prop where
  again : ∀ s, ofText (ofText s).text = ofText s
  settled : ∀ s, ∀ c ∈ (ofText s).text.toList,
    c ≠ '-' ∧ c ≠ ' ' ∧ Text.lower (String.singleton c) = String.singleton c
  respelled : ∀ s t : String, (∀ c ∈ s.toList, c.toNat < 128) → List.Forall₂ Respells s.toList t.toList →
    ofText s = ofText t
  handlers : ∀ (host : η) (c : Config) (rs : List (World.Registration α)) (spelling : String),
    (World.registered host c rs).handlers.Answers (α := α) "skill handler" (ofText spelling)
      (World.Registration.handlerOf (ofText spelling)) rs
  skills : ∀ (host : η) (c : Config) (rs : List (World.Registration α)) (spelling : String),
    (World.registered host c rs).skills.Answers (α := α) "skill" (ofText spelling)
      (World.Registration.skillOf (ofText spelling)) rs

theorem canonical (α η : Type) : Canonical α η where
  again := ofText_text_ofText
  settled s c hc := by
    obtain ⟨hsettled, hdash, hspace⟩ := settled_of_mem_ofText hc
    exact ⟨hdash, hspace, Text.lower_of_settled (by simpa using hsettled)⟩
  respelled _ _ hs h := ofText_eq_of_respells hs h
  handlers host c rs spelling := by
    refine Registry.answers_of_get? (World.kinds_registrations rs _).1 ?_
    have hlast := World.registrations_last (fun w => w.handlers.get? (ofText spelling).text)
      (World.Registration.handlers_act (ofText spelling)) rs (.new host c)
    exact hlast.trans Option.or_none
  skills host c rs spelling := by
    refine Registry.answers_of_get? (World.kinds_registrations rs _).2 ?_
    have hlast := World.registrations_last (fun w => w.skills.get? (ofText spelling).text)
      (World.Registration.skills_act (ofText spelling)) rs (.new host c)
    exact hlast.trans Option.or_none

example : ofText "FIRE-BOLT" = ofText "fire bolt" := by cbv

end SkillId
end Fray
