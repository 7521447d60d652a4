import Fray.Proofs.Pages
import Fray.Settings

/-! Settings on their way through a file. Whatever settings a document can hold are loaded as they were saved; the
    others leave the file alone. And whatever a document gives, it gives to the fields that it names, if every one of
    them is what it should be: the other fields have their defaults. -/

namespace Fray
namespace Settings

open Toml (Value Table Section)

/-! ### Fields -/

/-- The fields of settings. -/
inductive Field where
  | filter
  | targets
  | config
  | ticks
  | wolves
  | seed
  deriving DecidableEq

namespace Field

/-- The section that a field stands in. -/
def part : Field → String
  | filter | targets => "logging"
  | config => "combat"
  | ticks | wolves | seed => "arena"

/-- What a field is called in its section. -/
def name : Field → String
  | filter => "filter"
  | targets => "targets"
  | config => "config"
  | ticks => "ticks"
  | wolves => "wolves"
  | seed => "seed"

/-- How many fields of the section come before. -/
def place : Field → Nat
  | filter | config | ticks => 0
  | targets | wolves => 1
  | seed => 2

theorem isBare_name (f : Field) : Toml.IsBare f.name.toList := by
  cases f <;> decide

/-- What a field may be given. -/
inductive Holds : Field → Value → Prop
  | filter (text : String) : Holds filter (.string text)
  | targets (b : Bool) : Holds targets (.boolean b)
  | config (path : String) : Holds config (.string path)
  | ticks {i : Int} (h : 0 ≤ i ∧ i ≤ maxInteger) : Holds ticks (.integer i)
  | wolves {i : Int} (h : 0 ≤ i ∧ i ≤ maxWolves) : Holds wolves (.integer i)
  | seed {i : Int} (h : 0 ≤ i ∧ i ≤ maxInteger) : Holds seed (.integer i)

/-- What a document gives for a field. A section may be a table of its fields, or an array of them in their order. -/
def given (f : Field) (t : Table) : Option Value :=
  match t.lookup f.part with
  | some (.table entries) => entries.lookup f.name
  | some (.array values) => values[f.place]?
  | _ => none

/-- What settings have in a field. -/
def valueIn (s : Settings) : Field → Option Value
  | filter => some (.string s.logging.filter)
  | targets => some (.boolean s.logging.targets)
  | config => s.combat.config.map .string
  | ticks => some (.integer s.arena.ticks.toNat)
  | wolves => some (.integer s.arena.wolves.toNat)
  | seed => s.arena.seed.map fun n => .integer n.toNat

end Field

/-- What can stand for a section: a table, an array, or a date, which gives no field. -/
inductive IsSection : Value → Prop
  | table (entries : Table) : IsSection (.table entries)
  | array (values : List Value) : IsSection (.array values)
  | datetime (text : String) : IsSection (.datetime text)

/-- Everything that a document gives is what it should be. -/
structure WellTyped (t : Table) : Prop where
  parts : ∀ (f : Field) v, t.lookup f.part = some v → IsSection v
  fields : ∀ (f : Field) v, f.given t = some v → f.Holds v

/-- What a field has after a document was read: what it is given, or else its default. -/
def Filled (t : Table) (f : Field) (x : Option Value) : Prop :=
  x = (f.given t).or (f.valueIn {}) ∧ ∀ v, f.given t = some v → f.Holds v

theorem integer_injective : Function.Injective fun n : Nat => Value.integer n :=
  fun _ _ h => Int.ofNat_inj.mp (Value.integer.inj h)

theorem integer64_injective : Function.Injective fun n : UInt64 => Value.integer n.toNat :=
  fun _ _ h => UInt64.toNat_inj.mp (integer_injective h)

theorem integer32_injective : Function.Injective fun n : UInt32 => Value.integer n.toNat :=
  fun _ _ h => UInt32.toNat_inj.mp (integer_injective h)

theorem boolean_injective : Function.Injective Value.boolean := fun _ _ => Value.boolean.inj

theorem string_injective : Function.Injective Value.string := fun _ _ => Value.string.inj

/-- Settings that have the same in every field are the same. -/
theorem ext_fields {s s' : Settings} (h : ∀ f, Field.valueIn s f = Field.valueIn s' f) : s = s' := by
  obtain ⟨⟨filter, targets⟩, ⟨config⟩, ⟨ticks, wolves, seed⟩⟩ := s
  obtain ⟨⟨filter', targets'⟩, ⟨config'⟩, ⟨ticks', wolves', seed'⟩⟩ := s'
  have hfilter : filter = filter' := by simpa [Field.valueIn] using h .filter
  have htargets : targets = targets' := by simpa [Field.valueIn] using h .targets
  have hconfig : config = config' := Option.map_injective string_injective (h .config)
  have hticks : ticks = ticks' := integer64_injective (Option.some.inj (h .ticks))
  have hwolves : wolves = wolves' := integer32_injective (Option.some.inj (h .wolves))
  have hseed : seed = seed' := Option.map_injective integer64_injective (h .seed)
  rw [hfilter, htargets, hconfig, hticks, hwolves, hseed]

/-! ### Reading -/

/-- A reader gives what is encoded as the value, if the field may hold the value. -/
def Decodes {β : Type} (f : Field) (read : Value → Option β) (encode : β → Option Value) : Prop :=
  ∀ v x, read v = some x ↔ encode x = some v ∧ f.Holds v

theorem decodes_text {f : Field} (hf : ∀ x, f.Holds (.string x)) : Decodes f readText fun x => some (.string x) := by
  intro v x
  cases v with
  | string text =>
    simp only [readText, Option.some.injEq, Value.string.injEq, hf, and_true]
    exact eq_comm
  | _ => simp [readText]

theorem decodes_truth {f : Field} (hf : ∀ b, f.Holds (.boolean b)) :
    Decodes f readTruth fun b => some (.boolean b) := by
  intro v b
  cases v with
  | boolean truth =>
    simp only [readTruth, Option.some.injEq, Value.boolean.injEq, hf, and_true]
    exact eq_comm
  | _ => simp [readTruth]

theorem decodes_count {β : Type} {f : Field} {bound : Nat} {ofNat : Nat → β} {toNat : β → Nat}
    (hf : ∀ i, f.Holds (.integer i) ↔ 0 ≤ i ∧ i ≤ bound) (hofNat : ∀ x, ofNat (toNat x) = x)
    (htoNat : ∀ n ≤ bound, toNat (ofNat n) = n) :
    Decodes f (readCount bound ofNat) fun x => some (.integer (toNat x)) := by
  intro v x
  cases v with
  | integer i =>
    simp only [readCount, Option.ite_none_right_eq_some, Option.some.injEq, Value.integer.injEq, hf]
    constructor
    · rintro ⟨hi, rfl⟩
      rw [htoNat i.toNat (by omega)]
      exact ⟨Int.toNat_of_nonneg hi.1, hi⟩
    · rintro ⟨rfl, hi⟩
      exact ⟨hi, by rw [Int.toNat_natCast, hofNat]⟩
  | _ => simp [readCount]

theorem toNat_ofNat_of_le_maxInteger {n : Nat} (h : n ≤ maxInteger) : (UInt64.ofNat n).toNat = n :=
  UInt64.toNat_ofNat_of_lt' (Nat.lt_of_le_of_lt h (by decide))

theorem toNat_ofNat_of_le_maxWolves {n : Nat} (h : n ≤ maxWolves) : (UInt32.ofNat n).toNat = n :=
  UInt32.toNat_ofNat_of_lt' (Nat.lt_of_le_of_lt h (by decide))

theorem holds_ticks_iff (i : Int) : Field.ticks.Holds (.integer i) ↔ 0 ≤ i ∧ i ≤ maxInteger :=
  ⟨fun | .ticks h => h, .ticks⟩

theorem holds_wolves_iff (i : Int) : Field.wolves.Holds (.integer i) ↔ 0 ≤ i ∧ i ≤ maxWolves :=
  ⟨fun | .wolves h => h, .wolves⟩

theorem holds_seed_iff (i : Int) : Field.seed.Holds (.integer i) ↔ 0 ≤ i ∧ i ≤ maxInteger :=
  ⟨fun | .seed h => h, .seed⟩

theorem decodes_ticks : Decodes .ticks (readCount maxInteger UInt64.ofNat) fun n => some (.integer n.toNat) :=
  decodes_count holds_ticks_iff (fun _ => UInt64.ofNat_toNat) fun _ => toNat_ofNat_of_le_maxInteger

theorem decodes_wolves : Decodes .wolves (readCount maxWolves UInt32.ofNat) fun n => some (.integer n.toNat) :=
  decodes_count holds_wolves_iff (fun _ => UInt32.ofNat_toNat) fun _ => toNat_ofNat_of_le_maxWolves

theorem decodes_seed : Decodes .seed (readCount maxInteger UInt64.ofNat) fun n => some (.integer n.toNat) :=
  decodes_count holds_seed_iff (fun _ => UInt64.ofNat_toNat) fun _ => toNat_ofNat_of_le_maxInteger

/-- A field that may be missing is read like one that is there. -/
theorem Decodes.optional {β : Type} {f : Field} {read : Value → Option β} {encode : β → Value}
    (h : Decodes f read fun x => some (encode x)) :
    Decodes f (fun v => (read v).map some) fun o => o.map encode := by
  intro v o
  cases o with
  | none => simp
  | some x => simpa using h v x

theorem exists_fields_iff (names : List String) {v : Value} : (∃ part, fields names v = some part) ↔ IsSection v := by
  constructor
  · rintro ⟨part, h⟩
    cases v with
    | table entries => exact .table entries
    | array values => exact .array values
    | datetime text => exact .datetime text
    | string | integer | float | boolean => simp [fields] at h
  · rintro ⟨⟩ <;> exact ⟨_, rfl⟩

variable {t : Table}

theorem given_of_lookup {f : Field} {names : List String} {v : Value} {part : String → Option Value}
    (h : t.lookup f.part = some v) (hp : fields names v = some part) (hplace : names.idxOf f.name = f.place) :
    f.given t = part f.name := by
  cases v with
  | table entries | array values | datetime text =>
    obtain rfl := Option.some.inj hp
    simp [Field.given, h, hplace]
  | string | integer | float | boolean => simp [fields] at hp

theorem given_of_missing {f : Field} (h : t.lookup f.part = none) : f.given t = none := by
  simp [Field.given, h]

/-- A field is filled by the reader that its section has for it. -/
theorem field_eq_some_iff {f : Field} {β : Type} {part : String → Option Value} {read : Value → Option β}
    {default x : β} (encode : β → Option Value) (hencode : Function.Injective encode)
    (hread : Decodes f read encode) (hdefault : encode default = f.valueIn {}) (hg : f.given t = part f.name) :
    field part f.name read default = some x ↔ Filled t f (encode x) := by
  unfold field Filled
  rw [hg, ← hdefault]
  cases hp : part f.name with
  | none => simp [hencode.eq_iff, eq_comm]
  | some v => simp [hread v x]

theorem some_injective {β : Type} {f : β → Value} (hf : Function.Injective f) :
    Function.Injective fun x => some (f x) := (Option.some_injective _).comp hf

theorem readLogging_eq_some_iff {v : Value} {l : LoggingSettings} (h : t.lookup "logging" = some v) :
    readLogging v = some l ↔
      IsSection v ∧ Filled t .filter (some (.string l.filter)) ∧ Filled t .targets (some (.boolean l.targets)) := by
  rw [← exists_fields_iff ["filter", "targets"]]
  unfold readLogging
  cases hp : fields ["filter", "targets"] v with
  | none => simp
  | some part =>
    have hfilter : ∀ x, field part "filter" readText "info" = some x ↔ Filled t .filter (some (.string x)) := fun x =>
      field_eq_some_iff (f := .filter) _ (some_injective string_injective) (decodes_text .filter) rfl
        (given_of_lookup h hp rfl)
    have htargets : ∀ b, field part "targets" readTruth false = some b ↔
        Filled t .targets (some (.boolean b)) := fun b =>
      field_eq_some_iff (f := .targets) _ (some_injective boolean_injective) (decodes_truth .targets) rfl
        (given_of_lookup h hp rfl)
    simp only [Option.bind_eq_bind, Option.bind_some, Option.bind_eq_some_iff, hfilter, htargets]
    constructor
    · rintro ⟨_, hf, _, ht, heq⟩
      obtain rfl := Option.some.inj heq
      exact ⟨⟨part, rfl⟩, hf, ht⟩
    · rintro ⟨-, hf, ht⟩
      exact ⟨_, hf, _, ht, rfl⟩

theorem readCombat_eq_some_iff {v : Value} {c : CombatSettings} (h : t.lookup "combat" = some v) :
    readCombat v = some c ↔ IsSection v ∧ Filled t .config (c.config.map .string) := by
  rw [← exists_fields_iff ["config"]]
  unfold readCombat
  cases hp : fields ["config"] v with
  | none => simp
  | some part =>
    have hconfig : ∀ o, field part "config" (fun v => (readText v).map some) none = some o ↔
        Filled t .config (o.map .string) := fun o =>
      field_eq_some_iff (f := .config) _ (Option.map_injective string_injective) (decodes_text .config).optional rfl
        (given_of_lookup h hp rfl)
    simp only [Option.bind_eq_bind, Option.bind_some, Option.bind_eq_some_iff, hconfig]
    constructor
    · rintro ⟨_, hc, heq⟩
      obtain rfl := Option.some.inj heq
      exact ⟨⟨part, rfl⟩, hc⟩
    · rintro ⟨-, hc⟩
      exact ⟨_, hc, rfl⟩

theorem readArena_eq_some_iff {v : Value} {a : ArenaSettings} (h : t.lookup "arena" = some v) :
    readArena v = some a ↔ IsSection v ∧ Filled t .ticks (some (.integer a.ticks.toNat)) ∧
      Filled t .wolves (some (.integer a.wolves.toNat)) ∧ Filled t .seed (a.seed.map fun n => .integer n.toNat) := by
  rw [← exists_fields_iff ["ticks", "wolves", "seed"]]
  unfold readArena
  cases hp : fields ["ticks", "wolves", "seed"] v with
  | none => simp
  | some part =>
    have hticks : ∀ n, field part "ticks" (readCount maxInteger UInt64.ofNat) 200 = some n ↔
        Filled t .ticks (some (.integer n.toNat)) := fun n =>
      field_eq_some_iff (f := .ticks) _ (some_injective integer64_injective) decodes_ticks rfl
        (given_of_lookup h hp rfl)
    have hwolves : ∀ n, field part "wolves" (readCount maxWolves UInt32.ofNat) 3 = some n ↔
        Filled t .wolves (some (.integer n.toNat)) := fun n =>
      field_eq_some_iff (f := .wolves) _ (some_injective integer32_injective) decodes_wolves rfl
        (given_of_lookup h hp rfl)
    have hseed : ∀ o, field part "seed" (fun v => (readCount maxInteger UInt64.ofNat v).map some) none = some o ↔
        Filled t .seed (o.map fun n => .integer n.toNat) := fun o =>
      field_eq_some_iff (f := .seed) _ (Option.map_injective integer64_injective) decodes_seed.optional rfl
        (given_of_lookup h hp rfl)
    simp only [Option.bind_eq_bind, Option.bind_some, Option.bind_eq_some_iff, hticks, hwolves, hseed]
    constructor
    · rintro ⟨_, ht, _, hw, _, hs, heq⟩
      obtain rfl := Option.some.inj heq
      exact ⟨⟨part, rfl⟩, ht, hw, hs⟩
    · rintro ⟨-, ht, hw, hs⟩
      exact ⟨_, ht, _, hw, _, hs, rfl⟩

theorem filled_of_missing {f : Field} {x : Option Value} (h : t.lookup f.part = none) :
    Filled t f x ↔ x = f.valueIn {} := by
  simp [Filled, given_of_missing h]

/-- A section that may be missing. -/
theorem part_eq_some_iff {β : Type} {read : Value → Option β} {default x : β} {name : String} {P : Prop}
    (hgiven : ∀ v, t.lookup name = some v → (read v = some x ↔ IsSection v ∧ P))
    (hmissing : t.lookup name = none → (default = x ↔ P)) :
    field (fun name => t.lookup name) name read default = some x ↔
      (∀ v, t.lookup name = some v → IsSection v) ∧ P := by
  simp only [field]
  cases h : t.lookup name with
  | none => simp [hmissing h]
  | some v => simp [hgiven v h]

theorem logging_eq_some_iff {l : LoggingSettings} :
    field (fun name => t.lookup name) "logging" readLogging {} = some l ↔
      (∀ v, t.lookup "logging" = some v → IsSection v) ∧
        Filled t .filter (some (.string l.filter)) ∧ Filled t .targets (some (.boolean l.targets)) := by
  refine part_eq_some_iff (fun v => readLogging_eq_some_iff) fun h => ?_
  rw [filled_of_missing (f := .filter) h, filled_of_missing (f := .targets) h]
  obtain ⟨filter, targets⟩ := l
  simp [Field.valueIn, eq_comm]

theorem combat_eq_some_iff {c : CombatSettings} :
    field (fun name => t.lookup name) "combat" readCombat {} = some c ↔
      (∀ v, t.lookup "combat" = some v → IsSection v) ∧ Filled t .config (c.config.map .string) := by
  refine part_eq_some_iff (fun v => readCombat_eq_some_iff) fun h => ?_
  rw [filled_of_missing (f := .config) h]
  obtain ⟨config⟩ := c
  simp [Field.valueIn, eq_comm]

theorem arena_eq_some_iff {a : ArenaSettings} :
    field (fun name => t.lookup name) "arena" readArena {} = some a ↔
      (∀ v, t.lookup "arena" = some v → IsSection v) ∧ Filled t .ticks (some (.integer a.ticks.toNat)) ∧
        Filled t .wolves (some (.integer a.wolves.toNat)) ∧ Filled t .seed (a.seed.map fun n => .integer n.toNat) := by
  refine part_eq_some_iff (fun v => readArena_eq_some_iff) fun h => ?_
  rw [filled_of_missing (f := .ticks) h, filled_of_missing (f := .wolves) h, filled_of_missing (f := .seed) h]
  obtain ⟨ticks, wolves, seed⟩ := a
  simp only [Field.valueIn, ArenaSettings.mk.injEq, Option.some.injEq, integer64_injective.eq_iff,
    integer32_injective.eq_iff]
  simp [eq_comm]

/-- A document gives settings exactly if everything in it is what it should be, and then every field has what the
    document gives for it, or else its default. -/
theorem ofTable_eq_some_iff {s : Settings} :
    ofTable t = some s ↔ WellTyped t ∧ ∀ f : Field, f.valueIn s = (f.given t).or (f.valueIn {}) := by
  have hparts : ofTable t = some s ↔ (∀ f v, t.lookup (Field.part f) = some v → IsSection v) ∧
      ∀ f, Filled t f (f.valueIn s) := by
    simp only [ofTable, Option.bind_eq_bind, Option.bind_eq_some_iff, logging_eq_some_iff, combat_eq_some_iff,
      arena_eq_some_iff]
    constructor
    · rintro ⟨_, ⟨hl, hfilter, htargets⟩, _, ⟨hc, hconfig⟩, _, ⟨ha, hticks, hwolves, hseed⟩, heq⟩
      obtain rfl := Option.some.inj heq
      refine ⟨fun f => ?_, fun f => ?_⟩
      · cases f with
        | filter | targets => exact hl
        | config => exact hc
        | ticks | wolves | seed => exact ha
      · cases f with
        | filter => exact hfilter
        | targets => exact htargets
        | config => exact hconfig
        | ticks => exact hticks
        | wolves => exact hwolves
        | seed => exact hseed
    · rintro ⟨hsections, hfilled⟩
      exact ⟨s.logging, ⟨hsections .filter, hfilled .filter, hfilled .targets⟩, s.combat,
        ⟨hsections .config, hfilled .config⟩, s.arena,
        ⟨hsections .ticks, hfilled .ticks, hfilled .wolves, hfilled .seed⟩, rfl⟩
  rw [hparts]
  constructor
  · rintro ⟨hsections, hfilled⟩
    exact ⟨⟨hsections, fun f => (hfilled f).2⟩, fun f => (hfilled f).1⟩
  · rintro ⟨⟨hsections, hfields⟩, hvalues⟩
    exact ⟨hsections, fun f => ⟨hvalues f, hfields f⟩⟩

theorem exists_of_le_maxInteger {i : Int} (h : 0 ≤ i ∧ i ≤ maxInteger) :
    ∃ x : UInt64, Value.integer x.toNat = .integer i := by
  have hx := toNat_ofNat_of_le_maxInteger (n := i.toNat) (by omega)
  exact ⟨.ofNat i.toNat, by rw [hx, Int.toNat_of_nonneg h.1]⟩

/-- What a field may hold can be had in settings. -/
theorem exists_valueIn {f : Field} {v : Value} (h : f.Holds v) : ∃ s, f.valueIn s = some v := by
  cases h with
  | filter text => exact ⟨{ logging := { filter := text } }, rfl⟩
  | targets b => exact ⟨{ logging := { targets := b } }, rfl⟩
  | config path => exact ⟨{ combat := { config := some path } }, rfl⟩
  | @ticks i h =>
    obtain ⟨x, hx⟩ := exists_of_le_maxInteger h
    exact ⟨{ arena := { ticks := x } }, congrArg some hx⟩
  | @wolves i h =>
    have hx := toNat_ofNat_of_le_maxWolves (n := i.toNat) (by omega)
    exact ⟨{ arena := { wolves := .ofNat i.toNat } }, by rw [Field.valueIn, hx, Int.toNat_of_nonneg h.1]⟩
  | @seed i h =>
    obtain ⟨x, hx⟩ := exists_of_le_maxInteger h
    exact ⟨{ arena := { seed := some x } }, congrArg some hx⟩

theorem exists_settings (h : ∀ f v, Field.given f t = some v → f.Holds v) :
    ∃ s, ∀ f : Field, f.valueIn s = (f.given t).or (f.valueIn {}) := by
  have hfield : ∀ f : Field, ∃ s, f.valueIn s = (f.given t).or (f.valueIn {}) := by
    intro f
    cases hg : f.given t with
    | none => exact ⟨{}, rfl⟩
    | some v => exact exists_valueIn (h f v hg)
  choose s hs using hfield
  refine ⟨{ logging := ⟨(s .filter).logging.filter, (s .targets).logging.targets⟩,
            combat := ⟨(s .config).combat.config⟩,
            arena := ⟨(s .ticks).arena.ticks, (s .wolves).arena.wolves, (s .seed).arena.seed⟩ }, fun f => ?_⟩
  cases f with
  | filter => exact hs .filter
  | targets => exact hs .targets
  | config => exact hs .config
  | ticks => exact hs .ticks
  | wolves => exact hs .wolves
  | seed => exact hs .seed

theorem exists_ofTable_iff : (∃ s, ofTable t = some s) ↔ WellTyped t := by
  constructor
  · rintro ⟨s, hs⟩
    exact (ofTable_eq_some_iff.mp hs).1
  · intro ht
    obtain ⟨s, hs⟩ := exists_settings ht.fields
    exact ⟨s, ofTable_eq_some_iff.mpr ⟨ht, hs⟩⟩

/-! ### Writing -/

variable {s : Settings}

/-- What stands in a section is what the settings have in one of their fields. -/
theorem exists_field {p : Section} {e : String × Value} (hp : p ∈ s.sections) (he : e ∈ p.2) :
    ∃ f : Field, f.name = e.1 ∧ f.valueIn s = some e.2 := by
  simp only [sections, List.mem_cons, List.not_mem_nil, or_false] at hp
  rcases hp with rfl | rfl | rfl
  · simp only [List.mem_cons, List.not_mem_nil, or_false] at he
    rcases he with rfl | rfl
    · exact ⟨.filter, rfl, rfl⟩
    · exact ⟨.targets, rfl, rfl⟩
  · obtain ⟨path, hpath, rfl⟩ : ∃ path, s.combat.config = some path ∧ _ := by simpa using he
    exact ⟨.config, rfl, by simp [Field.valueIn, hpath]⟩
  · simp only [List.mem_cons, Option.mem_toList, Option.map_eq_some_iff] at he
    rcases he with rfl | rfl | ⟨seed, hseed, rfl⟩
    · exact ⟨.ticks, rfl, rfl⟩
    · exact ⟨.wolves, rfl, rfl⟩
    · exact ⟨.seed, rfl, by simp [Field.valueIn, hseed]⟩

/-- Every field that has a value stands in a section. -/
theorem exists_mem_sections {f : Field} {v : Value} (h : f.valueIn s = some v) :
    ∃ p ∈ s.sections, (f.name, v) ∈ p.2 := by
  cases f with
  | filter | targets | ticks | wolves =>
    obtain rfl := Option.some.inj h
    simp [sections, Field.name]
  | config =>
    obtain ⟨path, hpath, rfl⟩ := Option.map_eq_some_iff.mp h
    simp [sections, Field.name, hpath]
  | seed =>
    obtain ⟨seed, hseed, rfl⟩ := Option.map_eq_some_iff.mp h
    simp [sections, Field.name, hseed]

theorem keyed_sections (s : Settings) : Toml.Keyed s.sections where
  names := show ["logging", "combat", "arena"].Nodup by decide
  keys := by
    obtain ⟨logging, ⟨config⟩, ⟨ticks, wolves, seed⟩⟩ := s
    cases config <;> cases seed <;> simp [sections]
  bare_name p hp := by
    have hname : p.1 ∈ ["logging", "combat", "arena"] := List.mem_map_of_mem (f := (·.1)) hp
    exact (show ∀ name ∈ ["logging", "combat", "arena"], Toml.IsBare name.toList by decide) p.1 hname
  bare_key p hp e he := by
    obtain ⟨f, hname, -⟩ := exists_field hp he
    exact hname ▸ f.isBare_name

theorem isPlain_sections : ∀ p ∈ s.sections, ∀ e ∈ p.2, Toml.IsPlain e.2 := by
  intro p hp e he
  obtain ⟨f, -, hvalue⟩ := exists_field hp he
  cases f with
  | filter | targets | ticks | wolves =>
    rw [← Option.some.inj hvalue]
    constructor
  | config | seed =>
    obtain ⟨x, -, hx⟩ := Option.map_eq_some_iff.mp hvalue
    rw [← hx]
    constructor

theorem checkedInteger_natCast_eq_none_iff {n : Nat} : Toml.checkedInteger n = none ↔ maxInteger < n := by
  have hmax : maxInteger = 0x7fffffffffffffff := rfl
  simp only [hmax, Toml.checkedInteger, ite_eq_right_iff, reduceCtorEq, imp_false]
  omega

/-- Settings have no text exactly if one of their fields has a number that a document cannot hold. -/
theorem save?_eq_none_iff_field :
    s.save? = none ↔ ∃ f : Field, ∃ i, f.valueIn s = some (.integer i) ∧ Toml.checkedInteger i = none := by
  refine (Toml.write?_eq_none_iff isPlain_sections).trans ⟨?_, ?_⟩
  · rintro ⟨p, hp, e, he, i, hi, hnone⟩
    obtain ⟨f, -, hvalue⟩ := exists_field hp he
    exact ⟨f, i, hi ▸ hvalue, hnone⟩
  · rintro ⟨f, i, hvalue, hnone⟩
    obtain ⟨p, hp, hentry⟩ := exists_mem_sections hvalue
    exact ⟨p, hp, _, hentry, i, rfl, hnone⟩

/-- Only the ticks and the seed can be so large. -/
theorem save?_eq_none_iff : s.save? = none ↔
    maxInteger < s.arena.ticks.toNat ∨ ∃ seed, s.arena.seed = some seed ∧ maxInteger < seed.toNat := by
  rw [save?_eq_none_iff_field]
  constructor
  · rintro ⟨f, i, hvalue, hnone⟩
    cases f with
    | filter | targets => simp [Field.valueIn] at hvalue
    | config => simp [Field.valueIn] at hvalue
    | ticks =>
      obtain rfl := Value.integer.inj (Option.some.inj hvalue)
      exact Or.inl (checkedInteger_natCast_eq_none_iff.mp hnone)
    | wolves =>
      obtain rfl := Value.integer.inj (Option.some.inj hvalue)
      have hlarge := checkedInteger_natCast_eq_none_iff.mp hnone
      exact absurd (hlarge.trans s.arena.wolves.toNat_lt) (by decide)
    | seed =>
      obtain ⟨seed, hseed, heq⟩ := Option.map_eq_some_iff.mp hvalue
      obtain rfl := Value.integer.inj heq
      exact Or.inr ⟨seed, hseed, checkedInteger_natCast_eq_none_iff.mp hnone⟩
  · rintro (hticks | ⟨seed, hseed, hlarge⟩)
    · exact ⟨.ticks, _, rfl, checkedInteger_natCast_eq_none_iff.mpr hticks⟩
    · exact ⟨.seed, _, by rw [Field.valueIn, hseed]; rfl, checkedInteger_natCast_eq_none_iff.mpr hlarge⟩

/-- What settings have in a field, their document gives for it. -/
theorem given_toTable (s : Settings) (f : Field) : f.given s.toTable = f.valueIn s := by
  obtain ⟨logging, ⟨config⟩, ⟨ticks, wolves, seed⟩⟩ := s
  cases f with
  | filter | targets | ticks | wolves => rfl
  | config => cases config <;> rfl
  | seed => cases seed <;> rfl

theorem wellTyped_toTable {text : String} (h : s.save? = some text) : WellTyped s.toTable := by
  have hstored : ¬(maxInteger < s.arena.ticks.toNat ∨ ∃ seed, s.arena.seed = some seed ∧ maxInteger < seed.toNat) := by
    rw [← save?_eq_none_iff, h]
    exact Option.some_ne_none text
  obtain ⟨hticks, hseed⟩ := not_or.mp hstored
  refine ⟨fun f v h => ?_, fun f v h => ?_⟩
  · have htable : ∃ entries, v = .table entries := by
      cases f with
      | filter | targets | config | ticks | wolves | seed => exact ⟨_, (Option.some.inj h).symm⟩
    obtain ⟨entries, rfl⟩ := htable
    exact .table entries
  · rw [given_toTable] at h
    cases f with
    | filter => exact Option.some.inj h ▸ .filter _
    | targets => exact Option.some.inj h ▸ .targets _
    | config =>
      obtain ⟨path, -, rfl⟩ := Option.map_eq_some_iff.mp h
      exact .config path
    | ticks => exact Option.some.inj h ▸ .ticks ⟨Int.natCast_nonneg _, Int.ofNat_le.mpr (Nat.not_lt.mp hticks)⟩
    | wolves =>
      have hwolves : s.arena.wolves.toNat ≤ maxWolves := Nat.le_sub_one_of_lt s.arena.wolves.toNat_lt
      exact Option.some.inj h ▸ .wolves ⟨Int.natCast_nonneg _, Int.ofNat_le.mpr hwolves⟩
    | seed =>
      obtain ⟨n, hn, rfl⟩ := Option.map_eq_some_iff.mp h
      have hn : n.toNat ≤ maxInteger := Nat.not_lt.mp fun hlarge => hseed ⟨n, hn, hlarge⟩
      exact .seed ⟨Int.natCast_nonneg _, Int.ofNat_le.mpr hn⟩

theorem ofTable_toTable {text : String} (h : s.save? = some text) : ofTable s.toTable = some s := by
  refine ofTable_eq_some_iff.mpr ⟨wellTyped_toTable h, fun f => ?_⟩
  rw [given_toTable]
  cases f with
  | filter | targets | ticks | wolves => rfl
  | config => exact Option.or_none.symm
  | seed => exact Option.or_none.symm

/-! ### Saving and loading -/

theorem load_of_parse? {text : String} (h : Toml.parse? text = some t) :
    load (some text) = (ofTable t).getD {} := by
  simp [load, parse?, h]

theorem save_fst_eq_false_iff (file : Option String) : (s.save file).1 = false ↔ s.save? = none := by
  unfold save
  split <;> simp_all

/-- What becomes of settings in a file. -/
structure Persistent : Prop where
  /-- Settings cannot be saved exactly if their ticks or their seed exceed what a document can hold. -/
  refused : ∀ (s : Settings) file, (s.save file).1 = false ↔
    maxInteger < s.arena.ticks.toNat ∨ ∃ seed, s.arena.seed = some seed ∧ maxInteger < seed.toNat
  /-- A file in which settings cannot be saved is left as it is. -/
  kept : ∀ (s : Settings) file, (s.save file).1 = false → (s.save file).2 = file
  /-- Settings that are saved are loaded. -/
  loaded : ∀ (s : Settings) file, (s.save file).1 = true → load (s.save file).2 = s
  /-- A document in which everything is what it should be gives to each field what it gives, or else its default. -/
  given : ∀ text t, Toml.parse? text = some t → WellTyped t →
    ∀ f : Field, f.valueIn (load (some text)) = (f.given t).or (f.valueIn {})
  /-- If anything in a document is not what it should be, all fields have their defaults. -/
  spoiled : ∀ text t, Toml.parse? text = some t → ¬ WellTyped t → load (some text) = {}
  /-- So they have without a file, and if it holds no document. -/
  unread : load none = {} ∧ ∀ text, Toml.parse? text = none → load (some text) = {}
  /-- The fields are all that there is to settings. -/
  determined : ∀ s s' : Settings, (∀ f, Field.valueIn s f = Field.valueIn s' f) → s = s'

theorem persistent : Persistent where
  refused s file := (save_fst_eq_false_iff file).trans save?_eq_none_iff
  kept s file h := by
    rw [save, (save_fst_eq_false_iff file).mp h]
  loaded s file h := by
    obtain ⟨text, htext⟩ : ∃ text, s.save? = some text := by
      rw [← Option.ne_none_iff_exists', ne_eq, ← save_fst_eq_false_iff file, h]
      exact Bool.noConfusion
    have hparse : Toml.parse? text = some s.toTable := Toml.parse?_of_write? htext (keyed_sections s)
    simp only [save, htext]
    rw [load_of_parse? hparse, ofTable_toTable htext, Option.getD_some]
  given text t ht hwell f := by
    obtain ⟨s, hs⟩ := exists_ofTable_iff.mpr hwell
    rw [load_of_parse? ht, hs]
    exact (ofTable_eq_some_iff.mp hs).2 f
  spoiled text t ht hwell := by
    rw [load_of_parse? ht]
    cases h : ofTable t with
    | none => rfl
    | some s => exact absurd (ofTable_eq_some_iff.mp h).1 hwell
  unread := ⟨rfl, fun text ht => by simp [load, parse?, ht]⟩
  determined s s' := ext_fields

end Settings
end Fray
