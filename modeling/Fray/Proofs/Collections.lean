import Fray.Modifier.Map
import Fray.Modifier.Stat
import Mathlib.Logic.Function.Basic
import Mathlib.Data.List.Induction
import Mathlib.Data.List.Nodup

/-! The two collections of modifiers, each as a finite map with a log of what it released. A collection is known by
    its operations; whichever way these are written, a collection that treats its list of entries as a map by
    identity holds what was last put in, and releases what it takes out, no more and no less. -/

namespace Fray

variable {α μ κ ι σ : Type} [IsModifier μ α]

/-! ### Entries found by identity -/

namespace Entries

theorem get?_eq_some {ms : List μ} (h : (ms.map idOf).Nodup) {id : ModifierId} {m : μ} :
    get? ms id = some m ↔ m ∈ ms ∧ idOf m = id := by
  induction ms with
  | nil => simp [get?]
  | cons x ms ih =>
    obtain ⟨hx, hms⟩ := List.nodup_cons.mp h
    by_cases hid : idOf x = id
    · simp only [get?, List.find?_cons_of_pos (p := fun m => decide (idOf m = id)) (decide_eq_true hid),
        Option.some.injEq, List.mem_cons]
      constructor
      · rintro rfl
        exact ⟨.inl rfl, hid⟩
      · rintro ⟨rfl | hm, heq⟩
        · rfl
        · exact absurd (List.mem_map.mpr ⟨m, hm, heq.trans hid.symm⟩) hx
    · rw [get?, List.find?_cons_of_neg (by simpa using hid)]
      refine (ih hms).trans ⟨fun ⟨hm, heq⟩ => ⟨List.mem_cons_of_mem x hm, heq⟩, fun ⟨hm, heq⟩ => ?_⟩
      rcases List.mem_cons.mp hm with rfl | hm
      · exact absurd heq hid
      · exact ⟨hm, heq⟩

theorem get?_eq_none {ms : List μ} {id : ModifierId} : get? ms id = none ↔ id ∉ ms.map idOf := by
  simp [get?]

theorem contains_eq_isSome (ms : List μ) (id : ModifierId) : contains ms id = (get? ms id).isSome := by
  rw [Bool.eq_iff_iff, contains_iff, Option.isSome_iff_ne_none, ne_eq, get?_eq_none, not_not]

theorem get?_map_put (ms : List μ) (m : μ) (id : ModifierId) :
    get? (ms.map fun x => if idOf x = idOf m then m else x) id =
      if id = idOf m then (get? ms id).map fun _ => m else get? ms id := by
  induction ms with
  | nil => simp [get?]
  | cons x ms ih =>
    simp only [get?, List.map_cons, List.find?_cons] at ih ⊢
    by_cases hx : idOf x = idOf m
    · by_cases hid : id = idOf m
      · simp [hx, hid]
      · have hne : ¬idOf m = id := Ne.symm hid
        simpa [hx, hid, hne] using ih
    · by_cases hid : idOf x = id
      · have hne : ¬id = idOf m := fun heq => hx (hid.trans heq)
        simp [hid, hne]
      · simpa [hx, hid] using ih

theorem get?_put (ms : List μ) (m : μ) (id : ModifierId) :
    get? (put ms m) id = if id = idOf m then some m else get? ms id := by
  unfold put
  split
  · next hc =>
    rw [get?_map_put]
    by_cases hid : id = idOf m
    · rw [contains_eq_isSome, ← hid] at hc
      obtain ⟨x, hx⟩ := Option.isSome_iff_exists.mp hc
      rw [if_pos hid, if_pos hid, hx, Option.map_some]
    · rw [if_neg hid, if_neg hid]
  · next hc =>
    rw [contains_eq_isSome, Bool.not_eq_true, Option.isSome_eq_false_iff, Option.isNone_iff_eq_none] at hc
    rw [get?, List.find?_append, ← get?]
    by_cases hid : id = idOf m
    · subst hid
      simp [hc]
    · have hne : ¬idOf m = id := Ne.symm hid
      simp [hid, hne]

theorem nodup_filter {ms : List μ} (h : (ms.map idOf).Nodup) (p : μ → Bool) : ((ms.filter p).map idOf).Nodup :=
  h.sublist (List.filter_sublist.map idOf)

theorem get?_filter {ms : List μ} (h : (ms.map idOf).Nodup) (p : μ → Bool) (id : ModifierId) :
    get? (ms.filter p) id = (get? ms id).filter p := by
  ext m
  rw [get?_eq_some (nodup_filter h p), Option.filter_eq_some_iff, get?_eq_some h, List.mem_filter]
  tauto

theorem filter_idOf_eq {ms : List μ} (h : (ms.map idOf).Nodup) (id : ModifierId) :
    (ms.filter fun m => idOf m = id) = (get? ms id).toList := by
  induction ms with
  | nil => rfl
  | cons x ms ih =>
    obtain ⟨hx, hms⟩ := List.nodup_cons.mp h
    by_cases hid : idOf x = id
    · have hnone : get? ms id = none := get?_eq_none.mpr (hid ▸ hx)
      rw [List.filter_cons_of_pos (by simpa using hid), ih hms, hnone, get?,
        List.find?_cons_of_pos (by simpa using hid)]
      rfl
    · rw [List.filter_cons_of_neg (by simpa using hid), ih hms, get?, get?, List.find?_cons_of_neg (by simpa using hid)]

end Entries

/-! ### Collections and what is done to them -/

namespace Collection

/-- What can be done to a collection whose conditions on keys are of the kind `κ`. -/
inductive Op (μ κ : Type) where
  | insert (m : μ)
  | remove (id : ModifierId)
  | removeKeys (k : κ)
  | clear

inductive Answer (μ : Type) where
  | entry (m : Option μ)
  | count (n : Nat)
  | done

/-- What a collection ought to hold: the modifier of each identity. -/
abbrev Contents (μ : Type) := ModifierId → Option μ

namespace Op

/-- The same operation, its condition on keys written another way. -/
def mapKeys (f : κ → ι) : Op μ κ → Op μ ι
  | insert m => insert m
  | remove id => remove id
  | removeKeys k => removeKeys (f k)
  | clear => clear

variable (means : κ → String → Bool)

def contents (op : Op μ κ) (c : Contents μ) : Contents μ :=
  match op with
  | insert m => Function.update c (Entries.idOf m) (some m)
  | remove id => Function.update c id none
  | removeKeys k => fun id => (c id).filter fun m => !means k (modifier m).key
  | clear => fun _ => none

/-- The entries that an operation takes out, where they are held. -/
def takes : Op μ κ → μ → Bool
  | insert _ => fun _ => false
  | remove id => fun m => Entries.idOf m = id
  | removeKeys k => fun m => means k (modifier m).key
  | clear => fun _ => true

/-- What an operation ought to answer when it finds `c` and takes out `out`. -/
def answer (op : Op μ κ) (c : Contents μ) (out : List μ) : Answer μ :=
  match op with
  | insert m => .entry (c (Entries.idOf m))
  | remove id => .entry (c id)
  | removeKeys _ => .count out.length
  | clear => .done

/-- The effect on a list of entries. -/
def onEntries (op : Op μ κ) (ms : List μ) : List μ :=
  match op with
  | insert m => Entries.put ms m
  | _ => ms.filter fun m => !op.takes means m

end Op

end Collection

/-- A collection of modifiers, known by its operations and by what can be read of it. -/
structure Collection (σ κ μ : Type) where
  start : σ
  get? : σ → ModifierId → Option μ
  contains : σ → ModifierId → Bool
  size : σ → Nat
  entries : σ → List μ
  released : σ → List μ
  insert : σ → μ → Option μ × σ
  remove : σ → ModifierId → Option μ × σ
  removeKeys : σ → κ → Nat × σ
  clear : σ → σ
  /-- The keys that satisfy a condition. -/
  means : κ → String → Bool

def Stat.collection : Collection (Stat μ) (String → Bool) μ where
  start := {}
  get? := Stat.get?
  contains := Stat.contains
  size := Stat.size
  entries := Stat.entries
  released := Stat.released
  insert := Stat.register
  remove := Stat.remove
  removeKeys := Stat.removeIf
  clear := Stat.clear
  means condition := condition

def ModifierMap.collection : Collection (ModifierMap μ) String μ where
  start := {}
  get? := ModifierMap.get?
  contains := ModifierMap.contains
  size := ModifierMap.size
  entries := ModifierMap.entries
  released := ModifierMap.released
  insert := ModifierMap.add
  remove := ModifierMap.remove
  removeKeys := ModifierMap.removeKey
  clear := ModifierMap.clear
  means key other := other = key

namespace Collection

open Op Answer

def obey (C : Collection σ κ μ) (op : Op μ κ) (s : σ) : Answer μ × σ :=
  match op with
  | .insert m => (C.insert s m).map .entry id
  | .remove i => (C.remove s i).map .entry id
  | .removeKeys k => (C.removeKeys s k).map .count id
  | .clear => (.done, C.clear s)

def run (C : Collection σ κ μ) (ops : List (Op μ κ)) : σ := ops.foldl (fun s op => (C.obey op s).2) C.start

/-- The reference map after a sequence of operations. -/
def contents (C : Collection σ κ μ) (ops : List (Op μ κ)) : Contents μ :=
  ops.foldl (fun c op => op.contents C.means c) fun _ => none

variable {C : Collection σ κ μ}

@[simp] theorem run_append_singleton (ops : List (Op μ κ)) (op : Op μ κ) :
    C.run (ops ++ [op]) = (C.obey op (C.run ops)).2 := by
  simp [run]

@[simp] theorem contents_append_singleton (ops : List (Op μ κ)) (op : Op μ κ) :
    C.contents (ops ++ [op]) = op.contents C.means (C.contents ops) := by
  simp [contents]

/-- No identity is held twice. -/
def Distinct (C : Collection σ κ μ) (s : σ) : Prop := ((C.entries s).map Entries.idOf).Nodup

/-- The collection treats its entries as a map by identity. -/
structure Lawful (C : Collection σ κ μ) : Prop where
  entries_start : C.entries C.start = []
  released_start : C.released C.start = []
  get?_eq : ∀ s id, C.get? s id = Entries.get? (C.entries s) id
  contains_eq : ∀ s id, C.contains s id = Entries.contains (C.entries s) id
  size_eq : ∀ s, C.size s = (C.entries s).length
  entries_obey : ∀ s, C.Distinct s → ∀ op : Op μ κ, C.entries (C.obey op s).2 = op.onEntries C.means (C.entries s)
  released_obey : ∀ s, C.Distinct s → ∀ op : Op μ κ,
    C.released (C.obey op s).2 = C.released s ++ (C.entries s).filter (op.takes C.means)
  answer_obey : ∀ s, C.Distinct s → ∀ op : Op μ κ,
    (C.obey op s).1 = op.answer (Entries.get? (C.entries s)) ((C.entries s).filter (op.takes C.means))

end Collection

/-! ### Both collections are lawful -/

namespace Stat

theorem remove_eq {s : Stat μ} (hs : (s.entries.map Entries.idOf).Nodup) (id : ModifierId) :
    s.remove id = (s.get? id, ⟨s.entries.filter fun m => !decide (Entries.idOf m = id),
      s.released ++ s.entries.filter fun m => decide (Entries.idOf m = id)⟩) := by
  have hout : (s.entries.filter fun m => decide (Entries.idOf m = id)) = (s.get? id).toList :=
    Entries.filter_idOf_eq hs id
  rw [hout]
  unfold remove
  split
  · next m hm => simp [hm, Entries.erase]
  · next hnone =>
    have hall : (s.entries.filter fun m => !decide (Entries.idOf m = id)) = s.entries :=
      List.filter_eq_self.mpr fun m hm => by
        have hne : Entries.idOf m ≠ id := fun heq => Entries.get?_eq_none.mp hnone (List.mem_map.mpr ⟨m, hm, heq⟩)
        simp [hne]
    simp [hnone, hall]

theorem removeIf_eq (s : Stat μ) (condition : String → Bool) :
    s.removeIf condition = ((s.entries.filter fun m => condition (modifier m).key).length,
      ⟨s.entries.filter fun m => !condition (modifier m).key,
        s.released ++ s.entries.filter fun m => condition (modifier m).key⟩) := by
  simp [removeIf, List.partition_eq_filter_filter, Function.comp_def]

theorem clear_eq (s : Stat μ) : s.clear = ⟨[], s.released ++ s.entries⟩ := by
  simp [clear, removeIf]

theorem collection_lawful : (collection (μ := μ)).Lawful where
  entries_start := rfl
  released_start := rfl
  get?_eq _ _ := rfl
  contains_eq _ _ := rfl
  size_eq _ := rfl
  entries_obey s hs op := by
    cases op with
    | insert m => rfl
    | remove id => exact congrArg (fun p => p.2.entries) (remove_eq hs id)
    | removeKeys condition => exact congrArg (fun p => p.2.entries) (s.removeIf_eq condition)
    | clear => simp [Collection.obey, collection, clear_eq, Collection.Op.onEntries, Collection.Op.takes]
  released_obey s hs op := by
    cases op with
    | insert m => simp [Collection.obey, collection, register, Collection.Op.takes]
    | remove id => exact congrArg (fun p => p.2.released) (remove_eq hs id)
    | removeKeys condition => exact congrArg (fun p => p.2.released) (s.removeIf_eq condition)
    | clear => simp [Collection.obey, collection, clear_eq, Collection.Op.takes]
  answer_obey s hs op := by
    cases op with
    | insert m => rfl
    | remove id => exact congrArg (fun p => Collection.Answer.entry p.1) (remove_eq hs id)
    | removeKeys condition => exact congrArg (fun p => Collection.Answer.count p.1) (s.removeIf_eq condition)
    | clear => rfl

end Stat

theorem ModifierMap.collection_lawful : (ModifierMap.collection (μ := μ)).Lawful where
  entries_start := rfl
  released_start := rfl
  get?_eq _ _ := rfl
  contains_eq _ _ := rfl
  size_eq _ := rfl
  entries_obey s hs op := by
    cases op with
    | clear => simp [Collection.obey, ModifierMap.collection, ModifierMap.clear, Collection.Op.onEntries,
        Collection.Op.takes]
    | _ => rfl
  released_obey s hs op := by
    cases op with
    | insert m => simp [Collection.obey, ModifierMap.collection, ModifierMap.add, Collection.Op.takes]
    | clear =>
      have hall : s.entries.filter (fun _ => true) = s.entries := List.filter_eq_self.mpr fun _ _ => rfl
      simp [Collection.obey, ModifierMap.collection, ModifierMap.clear, Collection.Op.takes, hall]
    | _ => rfl
  answer_obey s hs op := by
    cases op with
    | _ => rfl

/-! ### What a lawful collection holds and releases -/

namespace Collection

variable {C : Collection σ κ μ}

theorem nodup_onEntries (means : κ → String → Bool) (op : Op μ κ) {ms : List μ} (h : (ms.map Entries.idOf).Nodup) :
    ((op.onEntries means ms).map Entries.idOf).Nodup := by
  cases op with
  | insert m => exact Entries.nodup_put h m
  | remove id => exact Entries.nodup_filter h _
  | removeKeys k => exact Entries.nodup_filter h _
  | clear => exact Entries.nodup_filter h _

/-- On entries and on the reference map an operation has the same effect. -/
theorem get?_onEntries (means : κ → String → Bool) (op : Op μ κ) {ms : List μ} (h : (ms.map Entries.idOf).Nodup) :
    Entries.get? (op.onEntries means ms) = op.contents means (Entries.get? ms) := by
  funext id
  cases op with
  | insert m => exact (Entries.get?_put ms m id).trans (Function.update_apply ..).symm
  | remove i =>
    refine (Entries.get?_filter h _ id).trans ?_
    rw [Op.contents, Function.update_apply]
    by_cases hid : id = i
    · rw [if_pos hid, Option.filter_eq_none_iff]
      intro m hm
      simpa [Op.takes, ← hid] using ((Entries.get?_eq_some h).mp hm).2
    · rw [if_neg hid]
      cases hm : Entries.get? ms id with
      | none => rfl
      | some m =>
        have hne : Entries.idOf m ≠ i := fun heq => hid (((Entries.get?_eq_some h).mp hm).2.symm.trans heq)
        exact Option.filter_some_pos (by simp [Op.takes, hne])
  | removeKeys k => exact Entries.get?_filter h _ id
  | clear => exact (Entries.get?_filter h _ id).trans (by simp [Op.takes, Op.contents])

theorem Lawful.distinct_run (hC : C.Lawful) (ops : List (Op μ κ)) : C.Distinct (C.run ops) := by
  induction ops using List.reverseRecOn with
  | nil => simp [Distinct, run, hC.entries_start]
  | append_singleton ops op ih =>
    rw [run_append_singleton, Distinct, hC.entries_obey _ ih]
    exact nodup_onEntries C.means op ih

theorem Lawful.get?_entries_run (hC : C.Lawful) (ops : List (Op μ κ)) :
    Entries.get? (C.entries (C.run ops)) = C.contents ops := by
  induction ops using List.reverseRecOn with
  | nil =>
    funext id
    simp [run, hC.entries_start, contents, Entries.get?]
  | append_singleton ops op ih =>
    have hd := hC.distinct_run ops
    rw [run_append_singleton, contents_append_singleton, hC.entries_obey _ hd, get?_onEntries C.means op hd, ih]

theorem Lawful.contains_run (hC : C.Lawful) (ops : List (Op μ κ)) (id : ModifierId) :
    C.contains (C.run ops) id = (C.contents ops id).isSome := by
  rw [hC.contains_eq, Entries.contains_eq_isSome, hC.get?_entries_run]

theorem Lawful.mem_entries_run (hC : C.Lawful) (ops : List (Op μ κ)) (m : μ) :
    m ∈ C.entries (C.run ops) ↔ C.contents ops (Entries.idOf m) = some m := by
  rw [← hC.get?_entries_run, Entries.get?_eq_some (hC.distinct_run ops)]
  exact (and_iff_left rfl).symm

/-- Of one identity an operation releases the entry that was held, when it leaves none. -/
theorem countP_takes (means : κ → String → Bool) (op : Op μ κ) {ms : List μ} (h : (ms.map Entries.idOf).Nodup)
    (id : ModifierId) :
    ((ms.filter (op.takes means)).countP fun m => Entries.idOf m = id) =
      if (Entries.get? ms id).isSome && !(op.contents means (Entries.get? ms) id).isSome then 1 else 0 := by
  have hout : ((ms.filter (op.takes means)).filter fun m => Entries.idOf m = id) =
      ((Entries.get? ms id).filter (op.takes means)).toList := by
    rw [Entries.filter_idOf_eq (Entries.nodup_filter h _), Entries.get?_filter h]
  rw [List.countP_eq_length_filter, hout]
  cases hm : Entries.get? ms id with
  | none => simp
  | some m =>
    have hid : Entries.idOf m = id := ((Entries.get?_eq_some h).mp hm).2
    cases op with
    | insert x =>
      by_cases hx : id = Entries.idOf x <;> simp [Op.takes, Op.contents, hx, hm]
    | remove i => by_cases hi : id = i <;> simp [Op.takes, Op.contents, hid, hi, hm]
    | removeKeys k => cases hk : means k (modifier m).key <;> simp [Op.takes, Op.contents, hm, hk]
    | clear => simp [Op.takes, Op.contents]

/-- The operation at place `i` of a sequence makes an identity absent that was present. -/
def loses (C : Collection σ κ μ) (ops : List (Op μ κ)) (id : ModifierId) (i : Nat) : Bool :=
  C.contains (C.run (ops.take i)) id && !C.contains (C.run (ops.take (i + 1))) id

/-- A collection that holds the reference map, and whose log tells exactly what was taken out. -/
structure Exact (C : Collection σ κ μ) : Prop where
  content : ∀ ops id, C.get? (C.run ops) id = C.contents ops id
  present : ∀ ops id, C.contains (C.run ops) id = (C.contents ops id).isSome
  held : ∀ ops m, m ∈ C.entries (C.run ops) ↔ C.contents ops (Entries.idOf m) = some m
  distinct : ∀ ops, ((C.entries (C.run ops)).map Entries.idOf).Nodup
  counted : ∀ ops, C.size (C.run ops) = (C.entries (C.run ops)).length
  /-- A step releases what it takes out of the map, each entry once, and answers for it. -/
  step : ∀ ops (op : Op μ κ), ∃ out,
    C.released (C.run (ops ++ [op])) = C.released (C.run ops) ++ out ∧
    (out.map Entries.idOf).Nodup ∧
    (∀ m, m ∈ out ↔ C.contents ops (Entries.idOf m) = some m ∧ op.takes C.means m) ∧
    (C.obey op (C.run ops)).1 = op.answer (C.contents ops) out
  /-- An entry that is neither taken out nor replaced stays. -/
  left : ∀ ops (op : Op μ κ) m, m ∈ C.entries (C.run ops) → op.takes C.means m = false →
    (∀ x, op = .insert x → Entries.idOf x ≠ Entries.idOf m) → m ∈ C.entries (C.run (ops ++ [op]))
  /-- Where there is nothing to take out, nothing is released. -/
  idle : ∀ ops (op : Op μ κ), (∀ m ∈ C.entries (C.run ops), op.takes C.means m = false) →
    C.released (C.run (ops ++ [op])) = C.released (C.run ops)
  /-- An identity is released as many times as it went from present to absent. -/
  losses : ∀ ops id, ((C.released (C.run ops)).countP fun m => Entries.idOf m = id) =
    (List.range ops.length).countP (C.loses ops id)

theorem Lawful.released_run (hC : C.Lawful) (ops : List (Op μ κ)) (op : Op μ κ) :
    C.released (C.run (ops ++ [op])) =
      C.released (C.run ops) ++ (C.entries (C.run ops)).filter (op.takes C.means) := by
  rw [run_append_singleton, hC.released_obey _ (hC.distinct_run ops)]

theorem Lawful.losses (hC : C.Lawful) (ops : List (Op μ κ)) (id : ModifierId) :
    ((C.released (C.run ops)).countP fun m => Entries.idOf m = id) =
      (List.range ops.length).countP (C.loses ops id) := by
  induction ops using List.reverseRecOn with
  | nil => simp [run, hC.released_start]
  | append_singleton ops op ih =>
    -- What was lost before is lost in the longer run too, and at the last place what the last operation released.
    have hbefore : ∀ i ∈ List.range ops.length, C.loses (ops ++ [op]) id i = C.loses ops id i := fun i hi => by
      have hi := List.mem_range.mp hi
      rw [loses, List.take_append_of_le_length (by omega), List.take_append_of_le_length (by omega), loses]
    have hlast : (((C.entries (C.run ops)).filter (op.takes C.means)).countP fun m => Entries.idOf m = id) =
        if C.loses (ops ++ [op]) id ops.length then 1 else 0 := by
      have hall : (ops ++ [op]).take (ops.length + 1) = ops ++ [op] := List.take_of_length_le (by simp)
      rw [countP_takes C.means op (hC.distinct_run ops), hC.get?_entries_run, ← contents_append_singleton,
        ← hC.contains_run, ← hC.contains_run, loses, List.take_left, hall]
    rw [hC.released_run, List.countP_append, hlast, ih, List.length_append, List.length_singleton, List.range_succ,
      List.countP_append, List.countP_singleton]
    exact congrArg (· + _) (List.countP_congr fun i hi => by rw [hbefore i hi])

theorem Lawful.exact (hC : C.Lawful) : C.Exact where
  content ops id := by rw [hC.get?_eq, hC.get?_entries_run]
  present := hC.contains_run
  held := hC.mem_entries_run
  distinct := hC.distinct_run
  counted ops := hC.size_eq _
  step ops op := by
    refine ⟨_, hC.released_run ops op, Entries.nodup_filter (hC.distinct_run ops) _, fun m => ?_, ?_⟩
    · rw [List.mem_filter, hC.mem_entries_run]
    · rw [hC.answer_obey _ (hC.distinct_run ops), hC.get?_entries_run]
  left ops op m hm hkeep hput := by
    rw [hC.mem_entries_run] at hm ⊢
    rw [contents_append_singleton]
    cases op with
    | insert x => rw [Op.contents, Function.update_of_ne (hput x rfl).symm, hm]
    | remove i =>
      have hne : Entries.idOf m ≠ i := by simpa [Op.takes] using hkeep
      rw [Op.contents, Function.update_of_ne hne, hm]
    | removeKeys k =>
      have hkey : C.means k (modifier m).key = false := hkeep
      simp [Op.contents, hm, hkey]
    | clear => exact absurd hkeep (by simp [Op.takes])
  idle ops op hnone := by
    rw [hC.released_run, List.filter_eq_nil_iff.mpr, List.append_nil]
    intro m hm
    simp [hnone m hm]
  losses := hC.losses

/-! ### The two collections side by side -/

/-- Two collections driven by the same operations, a condition `k` of the second written `f k` for the first. -/
structure Agree {τ : Type} (C : Collection σ κ μ) (D : Collection τ ι μ) (f : ι → κ) : Prop where
  content : ∀ (ops : List (Op μ ι)) id, C.get? (C.run (ops.map (Op.mapKeys f))) id = D.get? (D.run ops) id
  ids : ∀ (ops : List (Op μ ι)) id,
    C.contains (C.run (ops.map (Op.mapKeys f))) id = D.contains (D.run ops) id
  entries : ∀ ops : List (Op μ ι), (C.entries (C.run (ops.map (Op.mapKeys f)))).Perm (D.entries (D.run ops))
  size : ∀ ops : List (Op μ ι), C.size (C.run (ops.map (Op.mapKeys f))) = D.size (D.run ops)
  answer : ∀ (ops : List (Op μ ι)) (op : Op μ ι),
    (C.obey (op.mapKeys f) (C.run (ops.map (Op.mapKeys f)))).1 = (D.obey op (D.run ops)).1
  release : ∀ (ops : List (Op μ ι)) (op : Op μ ι), ∃ out out',
    C.released (C.run ((ops ++ [op]).map (Op.mapKeys f))) = C.released (C.run (ops.map (Op.mapKeys f))) ++ out ∧
    D.released (D.run (ops ++ [op])) = D.released (D.run ops) ++ out' ∧ out.Perm out'

section Agree

variable {τ : Type} {D : Collection τ ι μ} {f : ι → κ}

theorem takes_mapKeys (hf : ∀ k, C.means (f k) = D.means k) (op : Op μ ι) :
    (op.mapKeys f).takes C.means = op.takes D.means := by
  cases op with
  | removeKeys k =>
    funext m
    exact congrFun (hf k) _
  | _ => rfl

theorem contents_mapKeys (hf : ∀ k, C.means (f k) = D.means k) (ops : List (Op μ ι)) :
    C.contents (ops.map (Op.mapKeys f)) = D.contents ops := by
  induction ops using List.reverseRecOn with
  | nil => rfl
  | append_singleton ops op ih =>
    rw [List.map_append, List.map_singleton, contents_append_singleton, contents_append_singleton, ih]
    cases op with
    | removeKeys k =>
      funext id
      simp only [Op.mapKeys, Op.contents, hf k]
    | _ => rfl

/-- Lawful collections hold the same entries, for they hold the reference map. -/
theorem Lawful.entries_perm (hC : C.Lawful) (hD : D.Lawful) (hf : ∀ k, C.means (f k) = D.means k)
    (ops : List (Op μ ι)) : (C.entries (C.run (ops.map (Op.mapKeys f)))).Perm (D.entries (D.run ops)) := by
  refine (List.perm_ext_iff_of_nodup (List.Nodup.of_map _ (hC.distinct_run _))
    (List.Nodup.of_map _ (hD.distinct_run _))).mpr fun m => ?_
  rw [hC.mem_entries_run, hD.mem_entries_run, contents_mapKeys hf]

theorem answer_mapKeys (op : Op μ ι) (c : Contents μ) {out out' : List μ} (hout : out.Perm out') :
    (op.mapKeys f).answer c out = op.answer c out' := by
  cases op with
  | removeKeys k => exact congrArg Answer.count hout.length_eq
  | _ => rfl

theorem Lawful.agree (hC : C.Lawful) (hD : D.Lawful) (hf : ∀ k, C.means (f k) = D.means k) : C.Agree D f where
  content ops id := by rw [hC.exact.content, hD.exact.content, contents_mapKeys hf]
  ids ops id := by rw [hC.contains_run, hD.contains_run, contents_mapKeys hf]
  entries := hC.entries_perm hD hf
  size ops := by rw [hC.size_eq, hD.size_eq, (hC.entries_perm hD hf ops).length_eq]
  answer ops op := by
    have hout := (hC.entries_perm hD hf ops).filter (op.takes D.means)
    rw [hC.answer_obey _ (hC.distinct_run _), hD.answer_obey _ (hD.distinct_run _), hC.get?_entries_run,
      hD.get?_entries_run, contents_mapKeys hf, takes_mapKeys hf]
    exact answer_mapKeys op _ hout
  release ops op := by
    refine ⟨_, _, ?_, hD.released_run ops op, (hC.entries_perm hD hf ops).filter (op.takes D.means)⟩
    rw [List.map_append, List.map_singleton, hC.released_run, takes_mapKeys hf]

end Agree

end Collection

/-- Both collections of modifiers are finite maps with an exact log of what they released; driven by the same
    operations they hold, answer and release the same. -/
theorem collections_exact : (Stat.collection (μ := μ)).Exact ∧ (ModifierMap.collection (μ := μ)).Exact ∧
    (Stat.collection (μ := μ)).Agree ModifierMap.collection fun key other => other = key :=
  ⟨Stat.collection_lawful.exact, ModifierMap.collection_lawful.exact,
    Stat.collection_lawful.agree ModifierMap.collection_lawful fun _ => rfl⟩

end Fray
