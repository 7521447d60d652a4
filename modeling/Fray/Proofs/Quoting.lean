import Fray.Toml.Quote
import Mathlib.Data.List.TakeWhile
import Mathlib.Data.Option.Basic
import Mathlib.Tactic.Common

/-! Strings that are written in a document are read back, whatever characters they hold. Each kind of quotes has its
    own reader; the quotes are chosen such that what is written is what their reader takes for the text. -/

namespace Fray
namespace Toml

/-- A reader with fuel reads `s` from the front of the characters, whenever the fuel exceeds their number. -/
def Yields {β : Type} (read : Nat → Reader β) (cs : List Char) (s : β) (rest : List Char) : Prop :=
  ∀ fuel, cs.length < fuel → read fuel cs = some (s, rest)

/-! ### Characters -/

theorem isPrintable_of_not_control {c : Char} (h : isControl c = false) (hn : c ≠ '\n') : isPrintable c = true := by
  simp only [isControl, Bool.or_eq_false_iff, Bool.and_eq_false_iff, decide_eq_false_iff_not, not_lt] at h
  obtain ⟨hlow, hdel⟩ := h
  by_cases ht : c = '\t'
  · simp [isPrintable, ht]
  · have hlow : 32 ≤ c.toNat := by simpa [ht, hn] using hlow
    have hdel : c.toNat ≠ 127 := fun h => hdel (Char.toNat_inj.mp h)
    simp only [isPrintable, Bool.or_eq_true, Bool.and_eq_true, decide_eq_true_eq, Char.le_def, UInt32.le_iff_toNat_le]
    show (c = '\t' ∨ 32 ≤ c.toNat ∧ c.toNat ≤ 126) ∨ 128 ≤ c.toNat
    omega

/-! ### Escapes -/

theorem hexValue?_hexDigit :
    ∀ d < 16, hexValue? (if d < 10 then Char.ofNat (48 + d) else Char.ofNat (55 + d)) = some d := by
  decide

theorem codePoint_hexCode {n : Nat} (h : n < 256) (rest : List Char) :
    codePoint 4 (hexCode n ++ rest) = some (Char.ofNat n, rest) := by
  have hdigit := fun k => hexValue?_hexDigit (k % 16) (Nat.mod_lt k (by decide))
  have hcode : 16 * (16 * (16 * (n / 4096 % 16) + n / 256 % 16) + n / 16 % 16) + n % 16 = n := by omega
  have hdigits : (hexCode n).mapM hexValue? = some [n / 4096 % 16, n / 256 % 16, n / 16 % 16, n % 16] := by
    simp [hexCode, hdigit]
  have hvalid : Nat.isValidChar n := Or.inl (by omega)
  have htake : (hexCode n ++ rest).take 4 = hexCode n := List.take_left' rfl
  have hdrop : (hexCode n ++ rest).drop 4 = rest := List.drop_left' rfl
  simp [codePoint, htake, hdrop, hdigits, hcode, hvalid]

/-- Every character is written as it is, or with a backslash and what escapes it. -/
inductive Written (c : Char) : List Char → Prop
  | plain (hp : isPrintable c = true) (hb : c ≠ '\\') (hn : c ≠ '\n') (hr : c ≠ '\r') : Written c [c]
  | escape (d : Char) (ds : List Char) (hd : isBlank d = false) (hn : d ≠ '\n') (hr : d ≠ '\r')
    (he : ∀ rest, escape (d :: (ds ++ rest)) = some (c, rest)) : Written c ('\\' :: d :: ds)

theorem written_escaped (c : Char) : Written c (escaped c) := by
  unfold escaped
  split
  · next h => exact h ▸ .escape 'b' [] rfl (by decide) (by decide) fun _ => rfl
  split
  · next h => exact h ▸ .escape 't' [] rfl (by decide) (by decide) fun _ => rfl
  split
  · next h => exact h ▸ .escape 'n' [] rfl (by decide) (by decide) fun _ => rfl
  split
  · next h => exact h ▸ .escape 'f' [] rfl (by decide) (by decide) fun _ => rfl
  split
  · next h => exact h ▸ .escape 'r' [] rfl (by decide) (by decide) fun _ => rfl
  split
  · next h => exact h ▸ .escape '\\' [] rfl (by decide) (by decide) fun _ => rfl
  split
  · next h =>
    have hlow : c.toNat < 256 := by
      rcases h with h | rfl
      · omega
      · decide
    refine .escape 'u' (hexCode c.toNat) rfl (by decide) (by decide) fun rest => ?_
    have hcode := codePoint_hexCode hlow rest
    rwa [Char.ofNat_toNat] at hcode
  · next hn _ hr hb hc =>
    refine .plain (isPrintable_of_not_control ?_ hn) hb hn hr
    rw [not_or] at hc
    simp [isControl, hc]

/-! ### Double quotes -/

variable {cs rest : List Char}

theorem escapeAll_cons {c : Char} (many : Bool) (run : Nat) (cs : List Char) (hq : c ≠ '"')
    (hn : many = true → c ≠ '\n') : escapeAll many run (c :: cs) = escaped c ++ escapeAll many 0 cs := by
  cases many with
  | false => simp [escapeAll, hq]
  | true => simp [escapeAll, hq, hn rfl]

theorem yields_basicBody (cs rest : List Char) :
    Yields basicBody (escapeAll false 0 cs ++ '"' :: rest) cs rest := by
  induction cs with
  | nil =>
    intro fuel hfuel
    obtain ⟨fuel, rfl⟩ := Nat.exists_eq_add_one.mpr (Nat.zero_lt_of_lt hfuel)
    rfl
  | cons c cs ih =>
    intro fuel hfuel
    obtain ⟨fuel, rfl⟩ := Nat.exists_eq_add_one.mpr (Nat.zero_lt_of_lt hfuel)
    by_cases hq : c = '"'
    · subst hq
      have hread := ih fuel (by simp [escapeAll] at hfuel ⊢; omega)
      simp [escapeAll, basicBody, escape, hread]
    · rw [escapeAll_cons false 0 cs hq (by simp), List.append_assoc] at hfuel ⊢
      have hw := written_escaped c
      generalize escaped c = ds at hfuel hw ⊢
      cases hw with
      | plain hp hb =>
        have hread := ih fuel (by simp at hfuel ⊢; omega)
        simp [basicBody, hp, hread]
      | escape d ds _ _ _ he =>
        have hread := ih fuel (by simp at hfuel ⊢; omega)
        simp [basicBody, he, hread]

/-! ### Single quotes -/

theorem literalBody_append (h : ∀ c ∈ cs, c ≠ '\'' ∧ isPrintable c = true) :
    literalBody (cs ++ '\'' :: rest) = some (cs, rest) := by
  induction cs with
  | nil => rfl
  | cons c cs ih =>
    obtain ⟨⟨hq, hp⟩, hcs⟩ := List.forall_mem_cons.mp h
    simp [literalBody, hp, ih hcs]

/-! ### Several lines -/

theorem fst_le_countRuns (c : Char) (cs : List Char) (runs : Nat × Nat) :
    runs.1 ≤ (cs.foldl (countRun c) runs).1 := by
  induction cs generalizing runs with
  | nil => exact Nat.le_refl _
  | cons d cs ih =>
    refine Nat.le_trans ?_ (ih _)
    unfold countRun
    split
    · exact Nat.le_max_left _ _
    · exact Nat.le_refl _

section

variable {q c : Char} {escapes : Bool} {xs s : List Char}

theorem manyLinesBody_quotes (hq : q = '"' ∨ q = '\'') (hc : c ≠ q) (n fuel : Nat) :
    manyLinesBody q escapes (fuel + 1) (List.replicate (n + 1) q ++ c :: xs) = (do
      let (kept, ends) ← quoteRun (n + 1)
      if ends then return (List.replicate kept q, c :: xs)
      let (s, cs) ← manyLinesBody q escapes fuel (c :: xs)
      return (List.replicate kept q ++ s, cs)) := by
  have hnewline : q ≠ '\n' := by rcases hq with rfl | rfl <;> decide
  have hreturn : q ≠ '\r' := by rcases hq with rfl | rfl <;> decide
  have htake : ((List.replicate (n + 1) q ++ c :: xs).takeWhile (· = q)).length = n + 1 := by
    rw [List.takeWhile_append_of_pos (by simp)]
    simp [hc]
  have hdrop : (List.replicate (n + 1) q ++ c :: xs).drop (n + 1) = c :: xs := List.drop_left' (by simp)
  rw [List.replicate_succ, List.cons_append] at htake hdrop ⊢
  rw [manyLinesBody]
  · simp only [if_pos, htake, hdrop]
  · simp [hnewline]
  · simp [hreturn]

/-- Up to two quotes before another character belong to the text. -/
theorem Yields.afterRun (hq : q = '"' ∨ q = '\'') {run : Nat} (hrun : run ≤ 2) (hc : c ≠ q)
    (h : Yields (manyLinesBody q escapes) (c :: xs) s rest) :
    Yields (manyLinesBody q escapes) (List.replicate run q ++ c :: xs) (List.replicate run q ++ s) rest := by
  cases run with
  | zero => exact h
  | succ n =>
    intro fuel hfuel
    obtain ⟨fuel, rfl⟩ := Nat.exists_eq_add_one.mpr (Nat.zero_lt_of_lt hfuel)
    have hread := h fuel (by simp at hfuel ⊢; omega)
    rw [manyLinesBody_quotes hq hc, quoteRun, if_pos (by omega)]
    simp [hread]

/-- Up to two quotes before the closing ones belong to the text. -/
theorem yields_closing (hq : q = '"' ∨ q = '\'') {run : Nat} (hrun : run ≤ 2) :
    Yields (manyLinesBody q escapes) (List.replicate run q ++ q :: q :: q :: '\n' :: rest) (List.replicate run q)
      ('\n' :: rest) := by
  intro fuel hfuel
  obtain ⟨fuel, rfl⟩ := Nat.exists_eq_add_one.mpr (Nat.zero_lt_of_lt hfuel)
  have hc : '\n' ≠ q := by rcases hq with rfl | rfl <;> decide
  have hjoin : List.replicate run q ++ q :: q :: q :: '\n' :: rest =
      List.replicate (run + 2 + 1) q ++ '\n' :: rest := by
    rw [Nat.add_assoc, ← List.replicate_append_replicate, List.append_assoc]
    rfl
  rw [hjoin, manyLinesBody_quotes hq hc, quoteRun, if_neg (by omega), if_pos (by omega)]
  simp

theorem Yields.newline (h : Yields (manyLinesBody q escapes) xs s rest) :
    Yields (manyLinesBody q escapes) ('\n' :: xs) ('\n' :: s) rest := by
  intro fuel hfuel
  obtain ⟨fuel, rfl⟩ := Nat.exists_eq_add_one.mpr (Nat.zero_lt_of_lt hfuel)
  have hread := h fuel (by simpa using hfuel)
  simp [manyLinesBody, hread]

theorem Yields.plain (hc : c ≠ q) (hp : isPrintable c = true) (hn : c ≠ '\n') (hr : c ≠ '\r')
    (hb : escapes = true → c ≠ '\\') (h : Yields (manyLinesBody q escapes) xs s rest) :
    Yields (manyLinesBody q escapes) (c :: xs) (c :: s) rest := by
  intro fuel hfuel
  obtain ⟨fuel, rfl⟩ := Nat.exists_eq_add_one.mpr (Nat.zero_lt_of_lt hfuel)
  have hread := h fuel (by simpa using hfuel)
  have hescape : (escapes && decide (c = '\\')) = false := by cases escapes <;> simp_all
  rw [manyLinesBody]
  · simp [hc, hescape, hp, hread]
  · simp [hn]
  · simp [hr]

theorem Yields.escape {d : Char} {ds : List Char} (hd : isBlank d = false) (hn : d ≠ '\n') (hr : d ≠ '\r')
    (he : ∀ rest, Toml.escape (d :: (ds ++ rest)) = some (c, rest))
    (h : Yields (manyLinesBody '"' true) xs s rest) :
    Yields (manyLinesBody '"' true) ('\\' :: d :: (ds ++ xs)) (c :: s) rest := by
  intro fuel hfuel
  obtain ⟨fuel, rfl⟩ := Nat.exists_eq_add_one.mpr (Nat.zero_lt_of_lt hfuel)
  have hread := h fuel (by simp at hfuel ⊢; omega)
  have hskip : skipBlank (d :: (ds ++ xs)) = d :: (ds ++ xs) := List.dropWhile_cons_of_neg (by simp [hd])
  simp [manyLinesBody, hskip, hn, hr, he, hread]

end

/-- Escaped text in three quotes, after a run of quotes that began before it. -/
theorem yields_escaped (cs rest : List Char) {run : Nat} (hrun : run ≤ 2) :
    Yields (manyLinesBody '"' true)
      (List.replicate run '"' ++ (escapeAll true run cs ++ '"' :: '"' :: '"' :: '\n' :: rest))
      (List.replicate run '"' ++ cs) ('\n' :: rest) := by
  induction cs generalizing run with
  | nil =>
    rw [List.append_nil]
    exact yields_closing (Or.inl rfl) hrun
  | cons c cs ih =>
    have hrest := ih (Nat.zero_le 2)
    by_cases hq : c = '"'
    · subst hq
      by_cases hlt : run < 2
      · have hmore := @ih (run + 1) (by omega)
        simp only [escapeAll, hlt, if_true]
        rwa [List.replicate_succ', List.append_assoc, List.append_assoc] at hmore
      · simp only [escapeAll, hlt, if_true, if_false]
        exact (hrest.escape rfl (by decide) (by decide) fun _ => rfl : Yields _ ('\\' :: '"' :: ([] ++ _)) _ _).afterRun
          (Or.inl rfl) hrun (by decide)
    · by_cases hn : c = '\n'
      · subst hn
        simp only [escapeAll]
        exact hrest.newline.afterRun (Or.inl rfl) hrun (by decide)
      · rw [escapeAll_cons true run cs hq fun _ => hn, List.append_assoc]
        have hw := written_escaped c
        generalize escaped c = ds at hw ⊢
        cases hw with
        | plain hp hb _ hr => exact (hrest.plain hq hp hn hr fun _ => hb).afterRun (Or.inl rfl) hrun hq
        | escape d ds hd hn hr he => exact (hrest.escape hd hn hr he).afterRun (Or.inl rfl) hrun (by decide)

/-- Text as it is in three quotes, of which no more than two come in a row. -/
theorem yields_asIs (cs rest : List Char) (hcontrol : ∀ c ∈ cs, isControl c = false) {runs : Nat × Nat}
    (hruns : runs.2 ≤ runs.1) (hlongest : (cs.foldl (countRun '\'') runs).1 ≤ 2) :
    Yields (manyLinesBody '\'' false) (List.replicate runs.2 '\'' ++ (cs ++ '\'' :: '\'' :: '\'' :: '\n' :: rest))
      (List.replicate runs.2 '\'' ++ cs) ('\n' :: rest) := by
  have hrun : runs.2 ≤ 2 := Nat.le_trans hruns (Nat.le_trans (fst_le_countRuns '\'' cs runs) hlongest)
  induction cs generalizing runs with
  | nil =>
    rw [List.append_nil]
    exact yields_closing (Or.inr rfl) hrun
  | cons c cs ih =>
    obtain ⟨hc, hcs⟩ := List.forall_mem_cons.mp hcontrol
    rw [List.foldl_cons] at hlongest
    have hrest := @ih hcs (countRun '\'' runs c)
    by_cases hq : c = '\''
    · subst hq
      simp only [countRun, if_true] at hrest hlongest
      have hmore := hrest (Nat.le_max_right _ _) hlongest (Nat.le_trans (Nat.le_max_right _ _)
        (Nat.le_trans (fst_le_countRuns '\'' cs (max runs.1 (runs.2 + 1), runs.2 + 1)) hlongest))
      rwa [List.replicate_succ', List.append_assoc, List.append_assoc] at hmore
    · simp only [countRun, hq, if_false] at hrest hlongest
      have hread := hrest (Nat.zero_le _) hlongest (Nat.zero_le 2)
      by_cases hn : c = '\n'
      · subst hn
        exact hread.newline.afterRun (Or.inr rfl) hrun hq
      · have hr : c ≠ '\r' := by
          rintro rfl
          exact absurd hc (by decide)
        exact (hread.plain hq (isPrintable_of_not_control hc hn) hn hr (by simp)).afterRun (Or.inr rfl) hrun hq

/-! ### Strings -/

theorem ne_of_longestRun {c : Char} (h : longestRun c cs = 0) : ∀ d ∈ cs, d ≠ c := by
  have hruns : ∀ runs, (cs.foldl (countRun c) runs).1 = 0 → ∀ d ∈ cs, d ≠ c := by
    clear h
    induction cs with
    | nil => simp
    | cons d cs ih =>
      intro runs h
      refine List.forall_mem_cons.mpr ⟨?_, ih _ h⟩
      rintro rfl
      have hle := fst_le_countRuns d cs (countRun d runs d)
      rw [List.foldl_cons] at h
      rw [h, countRun, if_pos rfl] at hle
      exact absurd (Nat.le_trans (Nat.le_max_right _ _) hle) (Nat.not_succ_le_zero _)
  exact hruns (0, 0) h

theorem suiting_single (h : Quotes.suiting cs = .single) : ∀ c ∈ cs, c ≠ '\'' ∧ isPrintable c = true := by
  have hkinds : cs.any isControl = false ∧ longestRun '\'' cs = 0 ∧ cs.contains '\n' = false := by
    unfold Quotes.suiting at h
    simp only at h
    split_ifs at h
    simp_all
  obtain ⟨hcontrol, hlongest, hn⟩ := hkinds
  intro c hc
  refine ⟨ne_of_longestRun hlongest c hc, isPrintable_of_not_control ?_ ?_⟩
  · simpa using List.any_eq_false.mp hcontrol c hc
  · rintro rfl
    simp [hc] at hn

theorem suiting_threeSingle (h : Quotes.suiting cs = .threeSingle) :
    (∀ c ∈ cs, isControl c = false) ∧ longestRun '\'' cs ≤ 2 := by
  have hkinds : cs.any isControl = false ∧ longestRun '\'' cs ≤ 2 := by
    unfold Quotes.suiting at h
    simp only at h
    split_ifs at h
    simp_all
  obtain ⟨hcontrol, hlongest⟩ := hkinds
  exact ⟨fun c hc => by simpa using List.any_eq_false.mp hcontrol c hc, hlongest⟩

theorem string_double (cs rest : List Char) :
    string ('"' :: (escapeAll false 0 cs ++ '"' :: '\n' :: rest)) = some (String.ofList cs, '\n' :: rest) := by
  have hsingle : ∀ ys, escapeAll false 0 cs ++ '"' :: '\n' :: rest ≠ '"' :: '"' :: ys := by
    intro ys h
    cases cs with
    | nil => simp [escapeAll] at h
    | cons c cs =>
      by_cases hq : c = '"'
      · simp [escapeAll, hq] at h
      · rw [escapeAll_cons false 0 cs hq (by simp)] at h
        have hw := written_escaped c
        generalize escaped c = ds at hw h
        cases hw with
        | plain => exact hq (List.cons.inj h).1
        | escape => exact absurd (List.cons.inj h).1 (by decide)
  have hread := yields_basicBody cs ('\n' :: rest) _ (Nat.lt_succ_self _)
  simp only [List.length_append, List.length_cons] at hread
  simp [string, hread]

theorem string_single (rest : List Char) (h : ∀ c ∈ cs, c ≠ '\'' ∧ isPrintable c = true) :
    string ('\'' :: (cs ++ '\'' :: '\n' :: rest)) = some (String.ofList cs, '\n' :: rest) := by
  have hsingle : ∀ ys, cs ++ '\'' :: '\n' :: rest ≠ '\'' :: '\'' :: ys := by
    intro ys hy
    cases cs with
    | nil => simp at hy
    | cons c cs => exact (h c List.mem_cons_self).1 (List.cons.inj hy).1
  simp [string, literalBody_append h]

/-- What begins with no line end keeps its beginning. -/
theorem skipFirstLineEnd_eq {c : Char} {xs : List Char} (hn : c ≠ '\n') (hr : c ≠ '\r') :
    skipFirstLineEnd (c :: xs) = c :: xs := by
  simp [skipFirstLineEnd, hn, hr]

theorem length_skipFirstLineEnd (xs : List Char) : (skipFirstLineEnd xs).length ≤ xs.length := by
  unfold skipFirstLineEnd
  split
  · exact Nat.le_succ _
  · exact Nat.le_add_right _ 2
  · exact Nat.le_refl _

/-- The line end that several lines begin with is no part of them. -/
theorem skipFirstLineEnd_gap (ys : List Char) (h : '\n' ∉ cs → skipFirstLineEnd ys = ys) :
    skipFirstLineEnd ((if cs.contains '\n' then ['\n'] else []) ++ ys) = ys := by
  by_cases hn : '\n' ∈ cs
  · simp [hn, skipFirstLineEnd]
  · simpa [hn] using h hn

theorem skipFirstLineEnd_escaped (cs ys : List Char) (h : '\n' ∉ cs) :
    skipFirstLineEnd (escapeAll true 0 cs ++ '"' :: ys) = escapeAll true 0 cs ++ '"' :: ys := by
  cases cs with
  | nil => exact skipFirstLineEnd_eq (by decide) (by decide)
  | cons c cs =>
    by_cases hq : c = '"'
    · simpa [escapeAll, hq] using skipFirstLineEnd_eq (by decide) (by decide)
    · rw [escapeAll_cons true 0 cs hq fun _ hc => h (hc ▸ List.mem_cons_self)]
      have hw := written_escaped c
      generalize escaped c = ds at hw ⊢
      cases hw with
      | plain _ _ hn hr => exact skipFirstLineEnd_eq hn hr
      | escape => exact skipFirstLineEnd_eq (by decide) (by decide)

theorem skipFirstLineEnd_asIs (ys : List Char) (hcontrol : ∀ c ∈ cs, isControl c = false) (h : '\n' ∉ cs) :
    skipFirstLineEnd (cs ++ '\'' :: ys) = cs ++ '\'' :: ys := by
  cases cs with
  | nil => exact skipFirstLineEnd_eq (by decide) (by decide)
  | cons c cs =>
    have hc := hcontrol c List.mem_cons_self
    refine skipFirstLineEnd_eq ?_ ?_
    · rintro rfl
      exact h List.mem_cons_self
    · rintro rfl
      exact absurd hc (by decide)

/-- Several lines in three quotes are read by their reader, behind the line end that they may begin with. -/
theorem string_threeDouble {xs ys s rest : List Char} (hskip : skipFirstLineEnd xs = ys)
    (h : Yields (manyLinesBody '"' true) ys s rest) :
    string ('"' :: '"' :: '"' :: xs) = some (String.ofList s, rest) := by
  have hread := h (xs.length + 1) (Nat.lt_succ_of_le (hskip ▸ length_skipFirstLineEnd xs))
  simp [string, hskip, hread]

theorem string_threeSingle {xs ys s rest : List Char} (hskip : skipFirstLineEnd xs = ys)
    (h : Yields (manyLinesBody '\'' false) ys s rest) :
    string ('\'' :: '\'' :: '\'' :: xs) = some (String.ofList s, rest) := by
  have hread := h (xs.length + 1) (Nat.lt_succ_of_le (hskip ▸ length_skipFirstLineEnd xs))
  simp [string, hskip, hread]

/-- A string that is written is read back, whatever it holds. -/
theorem string_quote (s : String) (rest : List Char) :
    string ((quote s).toList ++ '\n' :: rest) = some (s, '\n' :: rest) := by
  rw [quote, String.toList_ofList]
  cases h : Quotes.suiting s.toList with
  | double => simpa using string_double s.toList rest
  | single => simpa using string_single rest (suiting_single h)
  | threeDouble =>
    have hskip := skipFirstLineEnd_gap _ (skipFirstLineEnd_escaped s.toList ('"' :: '"' :: '\n' :: rest))
    simpa using string_threeDouble hskip (yields_escaped s.toList rest (Nat.zero_le 2))
  | threeSingle =>
    obtain ⟨hcontrol, hlongest⟩ := suiting_threeSingle h
    have hskip := skipFirstLineEnd_gap _ (skipFirstLineEnd_asIs ('\'' :: '\'' :: '\n' :: rest) hcontrol)
    simpa using string_threeSingle hskip (yields_asIs s.toList rest hcontrol (Nat.le_refl 0) hlongest)

end Toml
end Fray
