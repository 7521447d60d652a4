import Fray.Toml.Scalar
import Mathlib.Data.List.Basic
import Mathlib.Data.Option.Basic
import Mathlib.Tactic.Common

/-! Numbers that are written in a document are read back. What stands at the end of a line in decimal digits is no
    date and no time, as those go on with another mark behind their first digits; it is no float either, and so it is
    the integer that it says. A minus before the digits changes no more than the sign. -/

namespace Fray
namespace Toml

variable {ds rest : List Char} {c : Char}

/-- All characters are decimal digits. -/
def AreDigits (ds : List Char) : Prop := ∀ d ∈ ds, d.isDigit = true

theorem areDigits_toDigits (n : Nat) : AreDigits (Nat.toDigits 10 n) := fun _ =>
  Nat.isDigit_of_mem_toDigits (by decide) (by decide)

/-- Only zero is written with a leading zero. -/
theorem head?_toDigits {n : Nat} (hn : n ≠ 0) : (Nat.toDigits 10 n).head? ≠ some '0' := by
  induction n using Nat.strongRecOn with
  | ind n ih =>
    rw [Nat.toDigits_eq_if (by decide)]
    split
    · next hlt =>
      have hdigits : ∀ d < 10, d ≠ 0 → [Nat.digitChar d].head? ≠ some '0' := by decide
      exact hdigits n hlt hn
    · next hle =>
      have hleading := ih (n / 10) (by omega) (by omega)
      obtain ⟨d, ds, hds⟩ := List.exists_cons_of_ne_nil (Nat.toDigits_ne_nil (n := n / 10) (b := 10))
      rwa [hds] at hleading ⊢

/-! ### No date and no time -/

theorem expect_digits (hd : AreDigits ds) (hc : c.isDigit = false) (hn : c ≠ '\n') :
    expect c (ds ++ '\n' :: rest) = none := by
  cases ds with
  | nil => simp [expect, hn.symm]
  | cons d ds =>
    have hne : d ≠ c := by
      rintro rfl
      simp [hd d List.mem_cons_self] at hc
    simp [expect, hne]

/-- Behind a number of a fixed width there are digits again, or the end of the line. -/
theorem fixedNumber_digits (hd : AreDigits ds) {width low high n : Nat} {cs : List Char}
    (h : fixedNumber width low high (ds ++ '\n' :: rest) = some (n, cs)) :
    ∃ ds', AreDigits ds' ∧ cs = ds' ++ '\n' :: rest := by
  simp only [fixedNumber, Option.ite_none_right_eq_some, Option.some.injEq, Prod.mk.injEq] at h
  obtain ⟨⟨hlength, hall, -, -⟩, -, rfl⟩ := h
  have hle : width ≤ ds.length := by
    by_contra hlt
    obtain ⟨k, hk⟩ : ∃ k, width - ds.length = k + 1 := Nat.exists_eq_add_one.mpr (by omega)
    rw [List.take_append, hk, List.take_succ_cons] at hall
    simp at hall
  refine ⟨ds.drop width, fun d hmem => hd d (List.mem_of_mem_drop hmem), List.drop_append_of_le_length hle⟩

theorem date_digits (hd : AreDigits ds) : date (ds ++ '\n' :: rest) = none := by
  unfold date
  cases h : fixedNumber 4 0 9999 (ds ++ '\n' :: rest) with
  | none => rfl
  | some r =>
    obtain ⟨ds', hd', hcs⟩ := fixedNumber_digits hd h
    simp [hcs, expect_digits hd']

theorem time_digits (hd : AreDigits ds) : time (ds ++ '\n' :: rest) = none := by
  unfold time
  cases h : fixedNumber 2 0 23 (ds ++ '\n' :: rest) with
  | none => rfl
  | some r =>
    obtain ⟨ds', hd', hcs⟩ := fixedNumber_digits hd h
    simp [hcs, expect_digits hd']

theorem datetime_digits (hd : AreDigits ds) : datetime (ds ++ '\n' :: rest) = none := by
  simp [datetime, date_digits hd, time_digits hd]

/-! ### Integers -/

theorem moreDigits_digits (hd : AreDigits ds) :
    moreDigits Char.isDigit (ds ++ '\n' :: rest) = (ds, '\n' :: rest) := by
  induction ds with
  | nil => simp [moreDigits]
  | cons d ds ih =>
    obtain ⟨hdigit, hds⟩ := List.forall_mem_cons.mp hd
    have hne : d ≠ '_' := by
      rintro rfl
      simp at hdigit
    simp [moreDigits, hdigit, hne, ih hds]

theorem sign_digits (hd : AreDigits ds) (hne : ds ≠ []) : sign (ds ++ rest) = (false, ds ++ rest) := by
  obtain ⟨d, ds, rfl⟩ := List.exists_cons_of_ne_nil hne
  have hdigit := hd d List.mem_cons_self
  have hplus : d ≠ '+' := by rintro rfl; simp at hdigit
  have hminus : d ≠ '-' := by rintro rfl; simp at hdigit
  simp [sign, hplus, hminus]

variable {cs : List Char} {negative : Bool} {n : Nat}

/-- A number that is written in decimal behind its sign is read as such. -/
theorem decimal_of_sign (h : sign cs = (negative, Nat.toDigits 10 n ++ '\n' :: rest)) :
    decimal cs = some ((negative, Nat.toDigits 10 n), '\n' :: rest) := by
  have hd := areDigits_toDigits n
  unfold decimal
  rw [h]
  by_cases hn : n = 0
  · subst hn
    rfl
  · have hhead := head?_toDigits hn
    obtain ⟨d, ds, hds⟩ := List.exists_cons_of_ne_nil (Nat.toDigits_ne_nil (n := n) (b := 10))
    rw [hds] at hd hhead ⊢
    obtain ⟨hdigit, hrest⟩ := List.forall_mem_cons.mp hd
    have hne : d ≠ '0' := by simpa using hhead
    simp [digits, hne, hdigit, moreDigits_digits hrest]

theorem number_of_sign (h : sign cs = (negative, Nat.toDigits 10 n ++ '\n' :: rest)) : number cs = none := by
  simp [number, decimal_of_sign h, exponent, expect, Option.failure_eq_none]

theorem specialNumber_of_sign (h : sign cs = (negative, ds ++ rest)) (hd : AreDigits ds) (hne : ds ≠ []) :
    specialNumber cs = none := by
  unfold specialNumber
  rw [h]
  obtain ⟨d, ds, rfl⟩ := List.exists_cons_of_ne_nil hne
  have hdigit := hd d List.mem_cons_self
  have hi : d ≠ 'i' := by rintro rfl; simp at hdigit
  have hn : d ≠ 'n' := by rintro rfl; simp at hdigit
  simp [hi, hn]

theorem hexValue?_digit (h : c.isDigit = true) : hexValue? c = some (c.toNat - 48) := by
  have hrange : '0' ≤ c ∧ c ≤ '9' := by simpa [Char.isDigit, Char.le_def] using h
  simp [hexValue?, hrange]

theorem valueOf_digits (hd : AreDigits ds) : valueOf 10 ds = Nat.ofDigitChars 10 ds 0 := by
  refine List.foldl_ext _ _ 0 fun n d hmem => ?_
  rw [hexValue?_digit (hd d hmem)]
  rfl

theorem checkedInteger_eq_some_iff {i j : Int} :
    checkedInteger i = some j ↔ i = j ∧ -0x8000000000000000 ≤ i ∧ i < 0x8000000000000000 := by
  simp only [checkedInteger, Option.ite_none_right_eq_some, Option.some.injEq]
  omega

/-- Digits do not begin with the mark of another base. -/
theorem ne_mark_of_digits (hd : AreDigits ds) {d : Char} {cs : List Char} (h : ds ++ '\n' :: rest = '0' :: d :: cs) :
    d ≠ 'x' ∧ d ≠ 'o' ∧ d ≠ 'b' := by
  rcases ds with - | ⟨d₁, - | ⟨d₂, ds⟩⟩
  · simp at h
  · simp only [List.cons_append, List.nil_append, List.cons.injEq] at h
    obtain ⟨-, rfl, -⟩ := h
    decide
  · simp only [List.cons_append, List.cons.injEq] at h
    obtain ⟨-, rfl, -⟩ := h
    have hdigit := hd d₂ (by simp)
    refine ⟨?_, ?_, ?_⟩ <;> rintro rfl <;> simp at hdigit

-- The check is any one here: opening `checkedInteger` would make the kernel count to its bounds.
theorem checked_of_decimal (check : Int → Option Int)
    (h : decimal cs = some ((negative, ds), rest)) :
    (do
      let ((negative, ds), cs) ← decimal cs
      let n : Int := valueOf 10 ds
      return (← check (if negative then -n else n), cs)) =
        (check (if negative then -(valueOf 10 ds : Int) else valueOf 10 ds)).bind fun i => some (i, rest) := by
  rw [h]
  rfl

theorem integer_of_sign {i : Int} (h : sign cs = (negative, Nat.toDigits 10 n ++ '\n' :: rest))
    (hmark : ∀ d ds, cs = '0' :: d :: ds → d ≠ 'x' ∧ d ≠ 'o' ∧ d ≠ 'b')
    (hi : checkedInteger (if negative then -(n : Int) else n) = some i) : integer cs = some (i, '\n' :: rest) := by
  have hvalue : valueOf 10 (Nat.toDigits 10 n) = n := by
    rw [valueOf_digits (areDigits_toDigits n), Nat.ofDigitChars_ten_toDigits]
  unfold integer
  split
  · exact absurd rfl (hmark _ _ rfl).1
  · exact absurd rfl (hmark _ _ rfl).2.1
  · exact absurd rfl (hmark _ _ rfl).2.2
  · rw [checked_of_decimal checkedInteger (decimal_of_sign h), hvalue, hi]
    rfl

/-- A number that is written is read back, if it is not too large for a document. -/
theorem scalar_toDigits (hn : n < 0x8000000000000000) (rest : List Char) :
    scalar (Nat.toDigits 10 n ++ '\n' :: rest) = some (.integer n, '\n' :: rest) := by
  have hd := areDigits_toDigits n
  have hne : Nat.toDigits 10 n ≠ [] := Nat.toDigits_ne_nil
  have hsign : sign (Nat.toDigits 10 n ++ '\n' :: rest) = _ := sign_digits hd hne
  have hdatetime : datetime (Nat.toDigits 10 n ++ '\n' :: rest) = none := datetime_digits hd
  have hnumber := number_of_sign hsign
  have hspecial := specialNumber_of_sign hsign hd hne
  have hcheck : checkedInteger n = some (n : Int) := checkedInteger_eq_some_iff.mpr ⟨rfl, by omega⟩
  have hinteger : integer (Nat.toDigits 10 n ++ '\n' :: rest) = some ((n : Int), '\n' :: rest) :=
    integer_of_sign hsign (fun _ _ => ne_mark_of_digits hd) hcheck
  obtain ⟨d, ds, hds⟩ := List.exists_cons_of_ne_nil hne
  rw [hds] at hd hdatetime hnumber hspecial hinteger ⊢
  have hdigit := hd d List.mem_cons_self
  have ht : d ≠ 't' := by rintro rfl; simp at hdigit
  have hf : d ≠ 'f' := by rintro rfl; simp at hdigit
  have hdouble : d ≠ '"' := by rintro rfl; simp at hdigit
  have hsingle : d ≠ '\'' := by rintro rfl; simp at hdigit
  rw [List.cons_append] at hdatetime hnumber hspecial hinteger ⊢
  simp [scalar, ht, hf, hdouble, hsingle, hdigit, hdatetime, hnumber, hspecial, hinteger]

theorem fixedNumber_minus {width low high : Nat} (cs : List Char) :
    fixedNumber (width + 1) low high ('-' :: cs) = none := by
  simp [fixedNumber]

/-- So is a number behind a minus. -/
theorem scalar_minus (hn : n ≤ 0x8000000000000000) (rest : List Char) :
    scalar ('-' :: (Nat.toDigits 10 n ++ '\n' :: rest)) = some (.integer (-n), '\n' :: rest) := by
  have hsign : sign ('-' :: (Nat.toDigits 10 n ++ '\n' :: rest)) = (true, Nat.toDigits 10 n ++ '\n' :: rest) := rfl
  have hdatetime : datetime ('-' :: (Nat.toDigits 10 n ++ '\n' :: rest)) = none := by
    simp [datetime, date, time, fixedNumber_minus]
  have hspecial := specialNumber_of_sign hsign (areDigits_toDigits n) Nat.toDigits_ne_nil
  have hcheck : checkedInteger (-n) = some (-n : Int) := checkedInteger_eq_some_iff.mpr ⟨rfl, by omega⟩
  have hinteger : integer ('-' :: (Nat.toDigits 10 n ++ '\n' :: rest)) = some (-(n : Int), '\n' :: rest) :=
    integer_of_sign hsign (by simp) hcheck
  simp [scalar, hdatetime, number_of_sign hsign, hspecial, hinteger]

/-! ### Written integers -/

theorem toList_toString_natCast (n : Nat) : (toString (n : Int)).toList = Nat.toDigits 10 n := by
  show (toString n).toList = _
  rw [Nat.toString_eq_ofList_toDigits, String.toList_ofList]

theorem toList_toString_negSucc (n : Nat) : (toString (Int.negSucc n)).toList = '-' :: Nat.toDigits 10 (n + 1) := by
  show ("-" ++ toString (n + 1)).toList = _
  simp

/-- An integer that a document can hold is read as it is written. -/
theorem scalar_toString {i : Int} (h : checkedInteger i = some i) (rest : List Char) :
    scalar ((toString i).toList ++ '\n' :: rest) = some (.integer i, '\n' :: rest) := by
  obtain ⟨-, hlow, hhigh⟩ := checkedInteger_eq_some_iff.mp h
  cases i with
  | ofNat n => exact toList_toString_natCast n ▸ scalar_toDigits (Int.ofNat_lt.mp hhigh) rest
  | negSucc n => exact toList_toString_negSucc n ▸ scalar_minus (by omega) rest

end Toml
end Fray
