import Fray.Toml.Document
import Fray.Toml.Write
import Fray.Proofs.Numerals
import Fray.Proofs.Quoting

/-! Documents that are written line by line: headers of tables, and pairs of a bare key and a value. They are read as
    the lines that were written, and what is written section by section is a table of the sections. So a document of
    sections is read back; and it is not written only if it holds an integer that no document can hold. -/

namespace Fray
namespace Toml

variable {rest : List Char}

/-! ### Keys -/

/-- A key that needs no quotes. -/
structure IsBare (name : List Char) : Prop where
  ne_nil : name ≠ []
  bare : ∀ c ∈ name, isBareKey c = true

theorem isBare_iff {name : List Char} : IsBare name ↔ (!name.isEmpty && name.all isBareKey) = true := by
  simp only [Bool.and_eq_true, Bool.not_eq_true', List.isEmpty_eq_false_iff, List.all_eq_true]
  exact ⟨fun h => ⟨h.ne_nil, h.bare⟩, fun h => ⟨h.1, h.2⟩⟩

instance (name : List Char) : Decidable (IsBare name) := decidable_of_iff' _ isBare_iff

theorem isBareKey_iff_not {c : Char} (h : isBareKey c = true) :
    isBlank c = false ∧ c ≠ '"' ∧ c ≠ '\'' ∧ c ≠ '\n' ∧ c ≠ '\r' ∧ c ≠ '#' ∧ c ≠ '[' := by
  refine ⟨?_, ?_, ?_, ?_, ?_, ?_, ?_⟩
  · by_contra hb
    simp only [isBlank, Bool.not_eq_false, Bool.or_eq_true, decide_eq_true_eq] at hb
    rcases hb with rfl | rfl <;> exact absurd h (by decide)
  all_goals
    rintro rfl
    exact absurd h (by decide)

variable {name : List Char} (hname : IsBare name)
include hname

theorem keyPart_bare {c : Char} (hc : isBareKey c = false) :
    keyPart (name ++ c :: rest) = some (String.ofList name, c :: rest) := by
  have htake : (name ++ c :: rest).takeWhile isBareKey = name := by
    rw [List.takeWhile_append_of_pos hname.bare, List.takeWhile_cons_of_neg (by simp [hc]), List.append_nil]
  have hdrop : (name ++ c :: rest).dropWhile isBareKey = c :: rest := by
    rw [List.dropWhile_append_of_pos hname.bare, List.dropWhile_cons_of_neg (by simp [hc])]
  obtain ⟨d, ds, rfl⟩ := List.exists_cons_of_ne_nil hname.ne_nil
  obtain ⟨-, hdouble, hsingle, -⟩ := isBareKey_iff_not (hname.bare d List.mem_cons_self)
  rw [List.cons_append] at htake hdrop ⊢
  simp [keyPart, hdouble, hsingle, htake, hdrop]

theorem skipBlank_bare : skipBlank (name ++ rest) = name ++ rest := by
  obtain ⟨d, ds, rfl⟩ := List.exists_cons_of_ne_nil hname.ne_nil
  obtain ⟨hblank, -⟩ := isBareKey_iff_not (hname.bare d List.mem_cons_self)
  exact List.dropWhile_cons_of_neg (by simp [hblank])

/-- A bare key is read up to the mark behind it. -/
theorem key_bare {c d : Char} {cs : List Char} (hc : isBareKey c = false) (hskip : skipBlank (c :: rest) = d :: cs)
    (hd : d ≠ '.') : key (name ++ c :: rest) = some ([String.ofList name], d :: cs) := by
  simp [key, keyParts, skipBlank_bare hname, keyPart_bare hname hc, hskip, hd, depthLimit]

omit hname

/-! ### Lines -/

/-- From the characters on, these lines are read. -/
def Reads (cs : List Char) (ls : List Line) : Prop :=
  ∀ fuel, cs.length < fuel → lines inlineTable fuel cs = some ls

/-- These characters, at the end of a line, are read as the value. -/
structure Denotes (written : List Char) (v : Value) : Prop where
  read : ∀ rest, value inlineTable (depthLimit - 1) (written ++ '\n' :: rest) = some (v, '\n' :: rest)
  visible : ∀ c ∈ written.head?, isBlank c = false

theorem reads_nil : Reads [] [] := by
  intro fuel hfuel
  obtain ⟨fuel, rfl⟩ := Nat.exists_eq_add_one.mpr hfuel
  rfl

variable {cs : List Char} {ls : List Line}

theorem Reads.blankLine (h : Reads cs ls) : Reads ('\n' :: cs) ls := by
  intro fuel hfuel
  obtain ⟨fuel, rfl⟩ := Nat.exists_eq_add_one.mpr (Nat.zero_lt_of_lt hfuel)
  have hread := h fuel (by simpa using hfuel)
  simpa [lines, skipBlank, isBlank] using hread

theorem lineEnd_newline (cs : List Char) : lineEnd ('\n' :: cs) = some cs := by
  simp [lineEnd, skipBlank, isBlank]

theorem Denotes.skipBlank {written : List Char} {v : Value} (hv : Denotes written v) (cs : List Char) :
    Toml.skipBlank (' ' :: (written ++ '\n' :: cs)) = written ++ '\n' :: cs := by
  cases hw : written with
  | nil => simp [Toml.skipBlank, isBlank]
  | cons c ds =>
    have hc := hv.visible c (by simp [hw])
    have hblank : isBlank ' ' = true := by decide
    simp [Toml.skipBlank, hblank, hc]

include hname

theorem Reads.header (h : Reads cs ls) :
    Reads ('[' :: (name ++ ']' :: '\n' :: cs)) (.table [String.ofList name] :: ls) := by
  intro fuel hfuel
  obtain ⟨fuel, rfl⟩ := Nat.exists_eq_add_one.mpr (Nat.zero_lt_of_lt hfuel)
  have hread := h fuel (by simp at hfuel; omega)
  have hkey : key (name ++ ']' :: '\n' :: cs) = some ([String.ofList name], ']' :: '\n' :: cs) :=
    key_bare hname (by decide) (by simp [skipBlank, isBlank]) (by decide)
  have hskip : skipBlank ('[' :: (name ++ ']' :: '\n' :: cs)) = '[' :: (name ++ ']' :: '\n' :: cs) :=
    List.dropWhile_cons_of_neg (by decide)
  obtain ⟨d, ds, rfl⟩ := List.exists_cons_of_ne_nil hname.ne_nil
  obtain ⟨-, -, -, -, -, -, hbracket⟩ := isBareKey_iff_not (hname.bare d List.mem_cons_self)
  rw [List.cons_append] at hkey hskip ⊢
  simp [lines, hskip, hbracket, Toml.header, hkey, expect, lineEnd_newline, hread]

theorem pair_bare (cs : List Char) {written : List Char} {v : Value} (hv : Denotes written v) :
    Toml.pair (value inlineTable (depthLimit - 1)) (name ++ ' ' :: '=' :: ' ' :: (written ++ '\n' :: cs)) =
      some (([String.ofList name], v), '\n' :: cs) := by
  have hkey : key (name ++ ' ' :: '=' :: ' ' :: (written ++ '\n' :: cs)) =
      some ([String.ofList name], '=' :: ' ' :: (written ++ '\n' :: cs)) :=
    key_bare hname (by decide) (by simp [skipBlank, isBlank]) (by decide)
  have hend : skipBlank ('\n' :: cs) = '\n' :: cs := List.dropWhile_cons_of_neg (by decide)
  simp [Toml.pair, hkey, expect, hv.skipBlank, hv.read, hend]

theorem Reads.pair (h : Reads cs ls) {written : List Char} {v : Value} (hv : Denotes written v) :
    Reads (name ++ ' ' :: '=' :: ' ' :: (written ++ '\n' :: cs)) (.pair ([String.ofList name], v) :: ls) := by
  intro fuel hfuel
  obtain ⟨fuel, rfl⟩ := Nat.exists_eq_add_one.mpr (Nat.zero_lt_of_lt hfuel)
  have hread := h fuel (by simp at hfuel; omega)
  have hpair := pair_bare hname cs hv
  have hskip : skipBlank (name ++ ' ' :: '=' :: ' ' :: (written ++ '\n' :: cs)) = _ := skipBlank_bare hname
  obtain ⟨d, ds, rfl⟩ := List.exists_cons_of_ne_nil hname.ne_nil
  obtain ⟨-, -, -, hnewline, hreturn, hhash, hbracket⟩ := isBareKey_iff_not (hname.bare d List.mem_cons_self)
  rw [List.cons_append] at hpair hskip ⊢
  simp [lines, hskip, hnewline, hreturn, hhash, hbracket, hpair, lineEnd_newline, hread]

omit hname

/-! ### Values -/

/-- A scalar that does not open an array or an inline table is read where a value is asked for. -/
theorem denotes_of_scalar {written : List Char} {v : Value} {c : Char} {ds : List Char} (hw : written = c :: ds)
    (hblank : isBlank c = false) (harray : c ≠ '[') (htable : c ≠ '{')
    (h : ∀ rest, scalar (written ++ '\n' :: rest) = some (v, '\n' :: rest)) : Denotes written v where
  read rest := by
    have hread := h rest
    rw [hw, List.cons_append] at hread ⊢
    simpa [depthLimit, value, harray, htable] using hread
  visible d hd := by
    rw [hw, List.head?_cons, Option.mem_some_iff] at hd
    exact hd ▸ hblank

theorem denotes_truth (b : Bool) : Denotes (if b then "true" else "false").toList (.boolean b) := by
  cases b with
  | true => exact denotes_of_scalar (c := 't') rfl rfl (by decide) (by decide) fun _ => rfl
  | false => exact denotes_of_scalar (c := 'f') rfl rfl (by decide) (by decide) fun _ => rfl

theorem toString_eq_cons (i : Int) : ∃ c cs, (toString i).toList = c :: cs ∧ (c = '-' ∨ c.isDigit = true) := by
  cases i with
  | ofNat n =>
    obtain ⟨d, ds, hds⟩ := List.exists_cons_of_ne_nil (Nat.toDigits_ne_nil (n := n) (b := 10))
    exact ⟨d, ds, (toList_toString_natCast n).trans hds, Or.inr (areDigits_toDigits n d (by simp [hds]))⟩
  | negSucc n => exact ⟨_, _, toList_toString_negSucc n, Or.inl rfl⟩

theorem denotes_integer {i : Int} (h : checkedInteger i = some i) : Denotes (toString i).toList (.integer i) := by
  obtain ⟨c, cs, hw, hc⟩ := toString_eq_cons i
  refine denotes_of_scalar hw ?_ ?_ ?_ (scalar_toString h)
  · by_contra hb
    simp only [isBlank, Bool.not_eq_false, Bool.or_eq_true, decide_eq_true_eq] at hb
    rcases hb with rfl | rfl <;> simp at hc
  all_goals
    rintro rfl
    simp at hc

theorem quote_eq_cons (s : String) : ∃ q cs, (quote s).toList = q :: cs ∧ (q = '"' ∨ q = '\'') := by
  rw [quote, String.toList_ofList]
  cases Quotes.suiting s.toList with
  | double => exact ⟨_, _, rfl, Or.inl rfl⟩
  | single => exact ⟨_, _, rfl, Or.inr rfl⟩
  | threeDouble => exact ⟨_, _, rfl, Or.inl rfl⟩
  | threeSingle => exact ⟨_, _, rfl, Or.inr rfl⟩

theorem denotes_text (s : String) : Denotes (quote s).toList (.string s) := by
  obtain ⟨q, cs, hw, hq⟩ := quote_eq_cons s
  have hread : ∀ rest, scalar ((quote s).toList ++ '\n' :: rest) = some (.string s, '\n' :: rest) := by
    intro rest
    have hstring := string_quote s rest
    rw [hw, List.cons_append] at hstring ⊢
    rcases hq with rfl | rfl <;> simp [scalar, hstring]
  rcases hq with rfl | rfl
  · exact denotes_of_scalar hw rfl (by decide) (by decide) hread
  · exact denotes_of_scalar hw rfl (by decide) (by decide) hread

theorem denotes_of_writeValue? {v : Value} {text : String} (h : writeValue? v = some text) :
    Denotes text.toList v := by
  cases v with
  | string s => exact Option.some.inj h ▸ denotes_text s
  | integer i =>
    obtain ⟨j, hj, rfl⟩ := Option.map_eq_some_iff.mp h
    obtain ⟨rfl, -⟩ := checkedInteger_eq_some_iff.mp hj
    exact denotes_integer hj
  | boolean b => exact Option.some.inj h ▸ denotes_truth b
  | float | datetime | array | table => simp [writeValue?] at h

/-! ### Written lines -/

/-- The characters of lines, each with its end. -/
def page (ls : List String) : List Char := (String.join (ls.map (· ++ "\n"))).toList

theorem page_cons (l : String) (ls : List String) : page (l :: ls) = l.toList ++ '\n' :: page ls := by
  simp [page]

theorem reads_page_nil : Reads (page []) [] := reads_nil

theorem Reads.page_blank {ls : List String} {out : List Line} (h : Reads (page ls) out) :
    Reads (page ("" :: ls)) out := by
  rw [page_cons]
  exact h.blankLine

theorem Reads.page_header {ls : List String} {out : List Line} {l name : String} (hname : IsBare name.toList)
    (hl : l.toList = '[' :: (name.toList ++ [']'])) (h : Reads (page ls) out) :
    Reads (page (l :: ls)) (.table [name] :: out) := by
  have hread := Reads.header hname h
  rw [String.ofList_toList] at hread
  simpa [page_cons, hl] using hread

theorem Reads.page_pair {ls : List String} {out : List Line} {l name : String} {written : List Char} {v : Value}
    (hname : IsBare name.toList) (hl : l.toList = name.toList ++ ' ' :: '=' :: ' ' :: written) (hv : Denotes written v)
    (h : Reads (page ls) out) : Reads (page (l :: ls)) (.pair ([name], v) :: out) := by
  have hread := Reads.pair hname h hv
  rw [String.ofList_toList] at hread
  simpa [page_cons, hl] using hread

/-! ### Sections -/

/-- The header and the pairs of a section. -/
def Section.lines (s : Section) : List Line := .table [s.1] :: s.2.map fun e => .pair ([e.1], e.2)

theorem leadingPairs_section (es : Table) {ls : List Line} (h : leadingPairs ls = ([], ls)) :
    leadingPairs (es.map (fun e => .pair ([e.1], e.2)) ++ ls) = (es.map fun e => ([e.1], e.2), ls) := by
  induction es with
  | nil => exact h
  | cons e es ih => simp [leadingPairs, ih]

theorem insertPairs_distinct {es : Table} (before : Entries) (h : (es.map (·.1)).Nodup)
    (hb : ∀ e ∈ es, ∀ b ∈ before, b.1 ≠ e.1) :
    before.insertPairs (es.map fun e => ([e.1], e.2)) = some (before ++ es.map fun e => (e.1, .value e.2)) := by
  induction es generalizing before with
  | nil => simp [Entries.insertPairs]
  | cons e es ih =>
    obtain ⟨hfresh, hes⟩ := List.nodup_cons.mp h
    obtain ⟨he, hrest⟩ := List.forall_mem_cons.mp hb
    have hmore := ih (before ++ [(e.1, .value e.2)]) hes (by
      intro e' he' b hb'
      rcases List.mem_append.mp hb' with hb' | hb'
      · exact hrest e' he' b hb'
      · obtain rfl := List.mem_singleton.mp hb'
        intro heq
        exact hfresh (List.mem_map.mpr ⟨e', he', heq.symm⟩))
    have hinsert : before.insertPair [e.1] e.2 = some (before ++ [(e.1, .value e.2)]) := by
      rw [Entries.insertPair, if_neg]
      simp only [List.any_eq_true, decide_eq_true_eq]
      rintro ⟨b, hb', heq⟩
      exact he b hb' heq
    rw [Entries.insertPairs, List.map_cons, List.foldlM_cons, hinsert, List.map_cons]
    simpa [Entries.insertPairs] using hmore

/-- A header that nothing stands under yet opens its table behind all others. -/
theorem openTable_fresh {es : Table} {root : Entries} {name : String} (h : (es.map (·.1)).Nodup)
    (hb : ∀ e ∈ root, e.1 ≠ name) : root.openTable (es.map fun e => ([e.1], e.2)) name =
      some (root ++ [(name, .table .header (es.map fun e => (e.1, .value e.2)))]) := by
  have hlookup : root.lookup name = none :=
    List.lookup_eq_none_iff.mpr fun e he => bne_iff_ne.mpr (hb e he).symm
  have hfilter : root.filter (·.1 ≠ name) = root :=
    List.filter_eq_self.mpr fun e he => decide_eq_true (hb e he)
  have hinsert := insertPairs_distinct [] h (by simp)
  simp only [Entries.openTable, hlookup, hinsert, hfilter]
  rfl

/-- What is written section by section becomes a table of the sections. -/
theorem addSections_lines {ss : List Section} (root : Entries) (h : (ss.map (·.1)).Nodup)
    (hb : ∀ s ∈ ss, ∀ e ∈ root, e.1 ≠ s.1) (hs : ∀ s ∈ ss, (s.2.map (·.1)).Nodup) :
    addSections root (ss.flatMap Section.lines) =
      some (root ++ ss.map fun s => (s.1, .table .header (s.2.map fun e => (e.1, .value e.2)))) := by
  induction ss generalizing root with
  | nil => simp [addSections]
  | cons s ss ih =>
    obtain ⟨hfresh, hss⟩ := List.nodup_cons.mp h
    obtain ⟨hb, hrest⟩ := List.forall_mem_cons.mp hb
    obtain ⟨hkeys, hs⟩ := List.forall_mem_cons.mp hs
    have hheader : leadingPairs (ss.flatMap Section.lines) = ([], ss.flatMap Section.lines) := by
      cases ss with
      | nil => rfl
      | cons => rfl
    have hmore := ih (root ++ [(s.1, .table .header (s.2.map fun e => (e.1, .value e.2)))]) hss (by
      intro s' hs' e he
      rcases List.mem_append.mp he with he | he
      · exact hrest s' hs' e he
      · obtain rfl := List.mem_singleton.mp he
        intro heq
        exact hfresh (List.mem_map.mpr ⟨s', hs', heq.symm⟩)) hs
    rw [List.flatMap_cons, Section.lines, List.cons_append, addSections, leadingPairs_section s.2 hheader]
    simp only [Entries.change, openTable_fresh hkeys hb]
    simpa using hmore

theorem toTable_values (es : Table) : Entries.toTable (es.map fun e => (e.1, .value e.2)) = es := by
  induction es with
  | nil => rfl
  | cons e es ih => simp [Entries.toTable, Node.toValue, ih]

theorem toTable_sections (ss : List Section) :
    Entries.toTable (ss.map fun s => (s.1, .table .header (s.2.map fun e => (e.1, .value e.2)))) = document ss := by
  induction ss with
  | nil => rfl
  | cons s ss ih => simp [Entries.toTable, Node.toValue, toTable_values, ih, document]

/-- A text that is read as the lines of sections is the document of these sections. -/
theorem parse?_of_reads {text : String} {ss : List Section} (hbegin : text.toList.head? ≠ some '\uFEFF')
    (hread : Reads text.toList (ss.flatMap Section.lines)) (h : (ss.map (·.1)).Nodup)
    (hs : ∀ s ∈ ss, (s.2.map (·.1)).Nodup) : parse? text = some (document ss) := by
  have hlines := hread _ (Nat.lt_succ_self _)
  have hsections := addSections_lines [] h (by simp) hs
  rw [List.nil_append] at hsections
  unfold parse?
  split
  · next heq => simp [heq] at hbegin
  · simp [hlines, hsections, toTable_sections]

/-! ### Written documents -/

/-- The sections and their entries have distinct names, none of which needs quotes. -/
structure Keyed (ss : List Section) : Prop where
  names : (ss.map (·.1)).Nodup
  keys : ∀ s ∈ ss, (s.2.map (·.1)).Nodup
  bare_name : ∀ s ∈ ss, IsBare s.1.toList
  bare_key : ∀ s ∈ ss, ∀ e ∈ s.2, IsBare e.1.toList

variable {ls after : List String} {out : List Line}

theorem Reads.page_entries {es : Table} (h : es.mapM writeEntry? = some ls) (hbare : ∀ e ∈ es, IsBare e.1.toList)
    (hread : Reads (page after) out) :
    Reads (page (ls ++ after)) (es.map (fun e => .pair ([e.1], e.2)) ++ out) := by
  induction es generalizing ls with
  | nil =>
    obtain rfl : ls = [] := by simpa using h.symm
    exact hread
  | cons e es ih =>
    simp only [List.mapM_cons, Option.bind_eq_bind, Option.bind_eq_some_iff] at h
    obtain ⟨l, hl, ls', hls, heq⟩ := h
    obtain rfl := Option.some.inj heq
    obtain ⟨text, htext, rfl⟩ := Option.map_eq_some_iff.mp hl
    obtain ⟨he, hes⟩ := List.forall_mem_cons.mp hbare
    exact (ih hls hes).page_pair he (by simp) (denotes_of_writeValue? htext)

theorem Reads.page_section {s : Section} (h : writeSection? (s.1, .table s.2) = some ls) (hname : IsBare s.1.toList)
    (hkey : ∀ e ∈ s.2, IsBare e.1.toList) (hread : Reads (page after) out) :
    Reads (page (ls ++ after)) (s.lines ++ out) := by
  obtain ⟨entries, hentries, rfl⟩ := Option.map_eq_some_iff.mp h
  exact (hread.page_entries hentries hkey).page_header hname (by simp)

theorem mapM_document_cons {s : Section} {ss : List Section} {bs : List (List String)}
    (h : (document (s :: ss)).mapM writeSection? = some bs) :
    ∃ b bs', writeSection? (s.1, .table s.2) = some b ∧ (document ss).mapM writeSection? = some bs' ∧
      bs = b :: bs' := by
  simp only [document, List.map_cons, List.mapM_cons, Option.bind_eq_bind, Option.bind_eq_some_iff] at h
  obtain ⟨b, hb, bs', hbs, heq⟩ := h
  exact ⟨b, bs', hb, hbs, (Option.some.inj heq).symm⟩

/-- What is written as sections is read as the lines of the sections. -/
theorem reads_page_sections {ss : List Section} {bs : List (List String)}
    (h : (document ss).mapM writeSection? = some bs) (hname : ∀ s ∈ ss, IsBare s.1.toList)
    (hkey : ∀ s ∈ ss, ∀ e ∈ s.2, IsBare e.1.toList) :
    Reads (page ([""].intercalate bs)) (ss.flatMap Section.lines) := by
  induction ss generalizing bs with
  | nil =>
    obtain rfl : bs = [] := by simpa [document] using h.symm
    exact reads_page_nil
  | cons s ss ih =>
    obtain ⟨b, bs, hb, hbs, rfl⟩ := mapM_document_cons h
    obtain ⟨hn, hname⟩ := List.forall_mem_cons.mp hname
    obtain ⟨hk, hkey⟩ := List.forall_mem_cons.mp hkey
    have hread := ih hbs hname hkey
    -- Only before another section the line is empty.
    cases bs with
    | nil => simpa using hread.page_section hb hn hk
    | cons b' bs => simpa using hread.page_blank.page_section hb hn hk

/-- A document that is written is read back. -/
theorem parse?_of_write? {ss : List Section} {text : String} (h : write? (document ss) = some text) (hk : Keyed ss) :
    parse? text = some (document ss) := by
  obtain ⟨bs, hbs, heq⟩ := Option.bind_eq_some_iff.mp h
  obtain rfl := Option.some.inj heq
  refine parse?_of_reads ?_ (reads_page_sections hbs hk.bare_name hk.bare_key) hk.names hk.keys
  cases ss with
  | nil =>
    obtain rfl : bs = [] := by simpa [document] using hbs.symm
    simp
  | cons s ss =>
    obtain ⟨b, bs, hb, -, rfl⟩ := mapM_document_cons hbs
    obtain ⟨entries, -, rfl⟩ := Option.map_eq_some_iff.mp hb
    cases bs <;> simp

/-! ### Refused documents -/

/-- What the entries of a section may be. -/
inductive IsPlain : Value → Prop
  | string (text : String) : IsPlain (.string text)
  | integer (i : Int) : IsPlain (.integer i)
  | boolean (b : Bool) : IsPlain (.boolean b)

theorem mapM_eq_none_iff {β γ : Type} {f : β → Option γ} {l : List β} : l.mapM f = none ↔ ∃ x ∈ l, f x = none := by
  induction l with
  | nil => simp
  | cons x l ih =>
    rw [List.mapM_cons, List.exists_mem_cons_iff, ← ih]
    cases f x with
    | none => simp
    | some y => cases l.mapM f <;> simp

theorem writeValue?_eq_none_iff {v : Value} (hv : IsPlain v) :
    writeValue? v = none ↔ ∃ i, v = .integer i ∧ checkedInteger i = none := by
  cases hv <;> simp [writeValue?]

theorem writeSection?_eq_none_iff {s : Section} :
    writeSection? (s.1, .table s.2) = none ↔ ∃ e ∈ s.2, writeValue? e.2 = none := by
  simp only [writeSection?, Option.map_eq_none_iff, mapM_eq_none_iff, writeEntry?]

/-- A document of sections is refused exactly if there is an integer in it that no document can hold. -/
theorem write?_eq_none_iff {ss : List Section} (h : ∀ s ∈ ss, ∀ e ∈ s.2, IsPlain e.2) :
    write? (document ss) = none ↔ ∃ s ∈ ss, ∃ e ∈ s.2, ∃ i, e.2 = .integer i ∧ checkedInteger i = none := by
  have hwrite : write? (document ss) = none ↔ (document ss).mapM writeSection? = none := by
    unfold write?
    cases (document ss).mapM writeSection? <;> simp
  rw [hwrite, mapM_eq_none_iff]
  simp only [document, List.mem_map, exists_exists_and_eq_and, writeSection?_eq_none_iff]
  refine exists_congr fun s => and_congr_right fun hs => exists_congr fun e => and_congr_right fun he => ?_
  exact writeValue?_eq_none_iff (h s hs e he)

end Toml
end Fray
