import Fray.Interaction.Rules

/-! What a configuration makes of the rules, for any document whatsoever. A document is read at dotted paths: either
    a path leads to a truth value, or it goes astray, where a key is missing, something that is no table stands in
    the way, or what stands at its end is no truth value. The rules say one thing for each kind of interaction, and
    for that they look at two places of the document only. -/

namespace Fray

/-! ### Dotted paths -/

namespace ConfigPath

theorem cut_eq_splitOnPPrepend (part cs : List Char) : cut part cs = cs.splitOnPPrepend (· == '.') part := by
  induction cs generalizing part with
  | nil => rfl
  | cons c cs ih =>
    rw [cut, List.splitOnPPrepend_cons_eq_if, ih, ih]
    by_cases hc : c = '.'
    · simp [hc]
    · simp [hc]

/-- A dotted text names the path that it is the text of, as long as no part has a point in it. -/
theorem ofText_text {p : ConfigPath} (hne : p ≠ []) (hp : ∀ part ∈ p, '.' ∉ part.toList) : ofText p.text = p := by
  have hcut : cut [] p.text.toList = p.map String.toList := by
    rw [cut_eq_splitOnPPrepend, List.splitOnPPrepend_nil_right, ← List.splitOn_eq_splitOnP, text,
      String.toList_intercalate]
    refine List.splitOn_intercalate '.' (fun cs hcs => ?_) (by simpa using hne)
    obtain ⟨part, hpart, rfl⟩ := List.mem_map.mp hcs
    exact hp part hpart
  rw [ofText, hcut, List.map_map]
  simp

end ConfigPath

/-! ### Where a path leads -/

namespace Toml

/-- A path of keys leads from a table, through tables, to a value. -/
inductive Leads : Table → List String → Value → Prop
  | last {t : Table} {key : String} {v : Value} (h : t.lookup key = some v) : Leads t [key] v
  | on {t u : Table} {key : String} {path : List String} {v : Value} (h : t.lookup key = some (.table u))
    (hv : Leads u path v) : Leads t (key :: path) v

/-- A path of keys comes to no truth value. -/
inductive Astray : Table → List String → Prop
  | missing {t : Table} {key : String} (path : List String) (h : t.lookup key = none) : Astray t (key :: path)
  /-- What is no table stands in the way. -/
  | blocked {t : Table} {key next : String} (path : List String) {v : Value} (h : t.lookup key = some v)
    (hv : ∀ u, v ≠ .table u) : Astray t (key :: next :: path)
  | mistyped {t : Table} {key : String} {v : Value} (h : t.lookup key = some v) (hv : ∀ b, v ≠ .boolean b) :
    Astray t [key]
  | on {t u : Table} {key : String} {path : List String} (h : t.lookup key = some (.table u))
    (hu : Astray u path) : Astray t (key :: path)

theorem table?_eq_none {v : Value} (hv : ∀ u, v ≠ .table u) : v.table? = none := by
  cases v with
  | table u => exact absurd rfl (hv u)
  | _ => rfl

theorem at?_singleton (t : Table) (key : String) : t.at? [key] = t.lookup key := by
  cases h : t.lookup key <;> simp [Table.at?, h, Value.at?]

theorem at?_cons_table {t u : Table} {key : String} (h : t.lookup key = some (.table u)) {path : List String}
    (hpath : path ≠ []) : t.at? (key :: path) = u.at? path := by
  cases path with
  | nil => exact absurd rfl hpath
  | cons next path =>
    rw [Table.at?, h]
    rfl

theorem Leads.ne_nil {t : Table} {path : List String} {v : Value} (h : Leads t path v) : path ≠ [] := by
  cases h with
  | last _ => simp
  | on _ _ => simp

theorem Astray.ne_nil {t : Table} {path : List String} (h : Astray t path) : path ≠ [] := by
  cases h with
  | missing => simp
  | blocked => simp
  | mistyped => simp
  | on => simp

theorem Leads.at?_eq {t : Table} {path : List String} {v : Value} (h : Leads t path v) : t.at? path = some v := by
  induction h with
  | @last t key v h => rw [at?_singleton, h]
  | on h hv ih => rw [at?_cons_table h hv.ne_nil, ih]

theorem Astray.at?_ne {t : Table} {path : List String} (h : Astray t path) (b : Bool) :
    t.at? path ≠ some (.boolean b) := by
  induction h with
  | @missing t key path h => simp [Table.at?, h]
  | @blocked t key next path v h hv =>
    rw [Table.at?, h]
    simp [Value.at?, table?_eq_none hv]
  | @mistyped t key v h hv =>
    rw [at?_singleton, h]
    simpa using hv b
  | on h hu ih =>
    rw [at?_cons_table h hu.ne_nil]
    exact ih

/-- Every path leads to a truth value or goes astray. -/
theorem leads_or_astray {path : List String} (hpath : path ≠ []) (t : Table) :
    (∃ b, Leads t path (.boolean b)) ∨ Astray t path := by
  induction path generalizing t with
  | nil => exact absurd rfl hpath
  | cons key path ih =>
    cases h : t.lookup key with
    | none => exact Or.inr (.missing path h)
    | some v =>
      cases path with
      | nil =>
        by_cases hv : ∃ b, v = .boolean b
        · obtain ⟨b, rfl⟩ := hv
          exact Or.inl ⟨b, .last h⟩
        · exact Or.inr (.mistyped h fun b heq => hv ⟨b, heq⟩)
      | cons next path =>
        by_cases hv : ∃ u, v = .table u
        · obtain ⟨u, rfl⟩ := hv
          rcases ih (by simp) u with ⟨b, hb⟩ | hu
          · exact Or.inl ⟨b, .on h hb⟩
          · exact Or.inr (.on h hu)
        · exact Or.inr (.blocked path h fun u heq => hv ⟨u, heq⟩)

end Toml

namespace Config

/-- A document says yes or no at a dotted path. -/
def Says (c : Config) (path : String) (b : Bool) : Prop := Toml.Leads c.root (ConfigPath.ofText path) (.boolean b)

/-- A document says neither yes nor no at a dotted path. -/
def Silent (c : Config) (path : String) : Prop := Toml.Astray c.root (ConfigPath.ofText path)

variable {c : Config} {path : String} {b : Bool}

theorem Says.bool_eq (h : c.Says path b) (default : Bool) : c.bool (.ofText path) default = b := by
  have hat : c.lookup (ConfigPath.ofText path) = some (.boolean b) := Toml.Leads.at?_eq h
  rw [bool, hat]

theorem Silent.bool_eq (h : c.Silent path) (default : Bool) : c.bool (.ofText path) default = default := by
  unfold bool
  split
  · next b hb => exact absurd hb (Toml.Astray.at?_ne h b)
  · rfl

theorem ofText_ne_nil (path : String) : ConfigPath.ofText path ≠ [] := by
  rw [ConfigPath.ofText, ConfigPath.cut_eq_splitOnPPrepend]
  simp

theorem says_or_silent (c : Config) (path : String) : (∃ b, c.Says path b) ∨ c.Silent path :=
  Toml.leads_or_astray (ofText_ne_nil path) c.root

theorem bool_eq_iff (c : Config) (path : String) (default b : Bool) :
    c.bool (ConfigPath.ofText path) default = b ↔ c.Says path b ∨ c.Silent path ∧ default = b := by
  constructor
  · rintro rfl
    rcases c.says_or_silent path with ⟨b, hb⟩ | hsilent
    · rw [hb.bool_eq]
      exact Or.inl hb
    · rw [hsilent.bool_eq]
      exact Or.inr ⟨hsilent, rfl⟩
  · rintro (hb | ⟨hsilent, rfl⟩)
    · exact hb.bool_eq default
    · exact hsilent.bool_eq default

end Config

/-! ### The table of rules -/

namespace RuleMatrix

variable (c : Config) (m : RuleMatrix)

theorem enabled_set (j k : RuleKey) (b : Bool) : (m.set j b).enabled k = if k = j then b else m.enabled k := rfl

/-- What is read for one place of the table: offense without PvP is only ever allowed against oneself. -/
def entry (k : RuleKey) : Bool :=
  if k.offensive ∧ ¬ k.pvp ∧ k.relationship ≠ .selfTarget then false else c.bool k.path true

theorem enabled_foldl_set (js : List RuleKey) (k : RuleKey) :
    (js.foldl (fun m k => m.set k (c.bool k.path true)) m).enabled k =
      if k ∈ js then c.bool k.path true else m.enabled k := by
  induction js generalizing m with
  | nil => simp
  | cons j js ih =>
    rw [List.foldl_cons, ih, enabled_set]
    by_cases hj : k = j
    · subst hj
      simp
    · simp [hj]

theorem mem_ofRelationship {k : RuleKey} {r : Relationship} : k ∈ RuleKey.ofRelationship r ↔ k.relationship = r := by
  obtain ⟨r', offensive, pvp⟩ := k
  cases offensive <;> cases pvp <;> simp [RuleKey.ofRelationship, RuleKey.sides, eq_comm]

theorem enabled_readRelationship (r : Relationship) (k : RuleKey) :
    (readRelationship c m r).enabled k = if k.relationship = r then entry c k else m.enabled k := by
  obtain ⟨r', offensive, pvp⟩ := k
  have hread := enabled_foldl_set c m (RuleKey.ofRelationship r) ⟨r', offensive, pvp⟩
  simp only [mem_ofRelationship] at hread
  unfold readRelationship entry
  split
  · next hself =>
    rw [hread]
    subst hself
    by_cases hr : r' = .selfTarget
    · simp [hr]
    · simp [hr]
  · next hself =>
    rw [enabled_set, hread]
    by_cases hr : r' = r
    · subst hr
      cases offensive <;> cases pvp <;> simp [hself]
    · simp [hr]

theorem enabled_foldl_readRelationship (rs : List Relationship) (k : RuleKey) :
    (rs.foldl (readRelationship c) m).enabled k = if k.relationship ∈ rs then entry c k else m.enabled k := by
  induction rs generalizing m with
  | nil => simp
  | cons r rs ih =>
    rw [List.foldl_cons, ih, enabled_readRelationship]
    by_cases hr : k.relationship = r
    · simp [hr]
    · simp [hr]

theorem supportOnMobs_foldl_set (js : List RuleKey) :
    (js.foldl (fun m k => m.set k (c.bool k.path true)) m).supportOnMobs = m.supportOnMobs := by
  induction js generalizing m with
  | nil => rfl
  | cons j js ih => exact ih _

theorem supportOnMobs_foldl_readRelationship (rs : List Relationship) :
    (rs.foldl (readRelationship c) m).supportOnMobs = m.supportOnMobs := by
  have hread : ∀ m r, (readRelationship c m r).supportOnMobs = m.supportOnMobs := by
    intro m r
    unfold readRelationship
    split
    · exact supportOnMobs_foldl_set c m _
    · exact supportOnMobs_foldl_set c m _
  induction rs generalizing m with
  | nil => rfl
  | cons r rs ih => rw [List.foldl_cons, ih, hread]

/-- Every place of the table is read, and two places are set whatever was read. -/
theorem enabled_load (k : RuleKey) : (load c).enabled k =
    if k.offensive ∧ k.pvp ∧ (k.relationship = .partyOther ∨ k.relationship = .guildEnemy) then true
    else entry c k := by
  obtain ⟨r, offensive, pvp⟩ := k
  have hread := enabled_foldl_readRelationship c ⟨c.bool supportPath true, fun _ => true⟩ Relationship.all
    ⟨r, offensive, pvp⟩
  rw [if_pos r.mem_all] at hread
  unfold load
  rw [enabled_set, enabled_set, hread]
  by_cases hset : offensive = true ∧ pvp = true ∧ (r = .partyOther ∨ r = .guildEnemy)
  · -- the two places that are set last, after everything was read
    rw [if_pos hset]
    obtain ⟨rfl, rfl, rfl | rfl⟩ := hset
    · simp
    · simp
  · have hparty : (⟨r, offensive, pvp⟩ : RuleKey) ≠ ⟨.partyOther, true, true⟩ := by
      rintro ⟨⟩
      exact hset ⟨rfl, rfl, Or.inl rfl⟩
    have hguild : (⟨r, offensive, pvp⟩ : RuleKey) ≠ ⟨.guildEnemy, true, true⟩ := by
      rintro ⟨⟩
      exact hset ⟨rfl, rfl, Or.inr rfl⟩
    rw [if_neg hset, if_neg hguild, if_neg hparty]

theorem supportOnMobs_load : (load c).supportOnMobs = c.bool supportPath true :=
  supportOnMobs_foldl_readRelationship c _ _

end RuleMatrix

/-! ### What the rules say -/

/-- The place of a document that speaks of a kind of interaction. -/
def rulePath (i : Interaction) (r : Relationship) (pvp : Bool) : String :=
  "interaction-rules." ++ (if pvp then "pvp-on" else "pvp-off") ++ "." ++
    (if i.isOffense then "offense" else "support") ++ "." ++ r.configName

def switchPath : String := "interaction-rules.enabled"

def supportPath : String := "interaction-rules.support-skills-on-mobs"

theorem ConfigPath.text_four (a b c d : String) :
    ConfigPath.text [a, b, c, d] = a ++ "." ++ b ++ "." ++ c ++ "." ++ d := by
  rw [← String.toList_inj]
  simp [text]

theorem RuleKey.path_eq (i : Interaction) (r : Relationship) (pvp : Bool) :
    RuleKey.path ⟨r, i.isOffense, pvp⟩ = .ofText (rulePath i r pvp) := by
  have htext : ConfigPath.text (RuleKey.path ⟨r, i.isOffense, pvp⟩) = rulePath i r pvp :=
    ConfigPath.text_four _ _ _ _
  rw [← htext, ConfigPath.ofText_text (by simp [RuleKey.path])]
  intro part hpart
  simp only [RuleKey.path, List.mem_cons, List.not_mem_nil, or_false] at hpart
  rcases hpart with rfl | rfl | rfl | rfl
  · decide
  · split <;> decide
  · split <;> decide
  · cases r <;> decide

theorem Rules.enabledPath_eq : Rules.enabledPath = .ofText switchPath := by decide +kernel

theorem RuleMatrix.supportPath_eq : RuleMatrix.supportPath = .ofText Fray.supportPath := by decide +kernel

namespace Config

variable (c : Config)

/-- The rules are not switched off. -/
def On : Prop := ¬ c.Says switchPath false

/-- Offense without PvP that is not against oneself. -/
def Unprovoked (i : Interaction) (r : Relationship) (pvp : Bool) : Prop :=
  i.isOffense = true ∧ pvp = false ∧ r ≠ .selfTarget

/-- Offense with PvP against the own party's others or an enemy guild. -/
def Sanctioned (i : Interaction) (r : Relationship) (pvp : Bool) : Prop :=
  i.isOffense = true ∧ pvp = true ∧ (r = .partyOther ∨ r = .guildEnemy)

/-- What a document makes of a kind of interaction. -/
inductive Ruling (i : Interaction) (r : Relationship) (pvp : Bool) : Bool → Prop
  | switchedOff (h : c.Says switchPath false) : Ruling i r pvp true
  | unprovoked (hon : c.On) (h : Unprovoked i r pvp) : Ruling i r pvp false
  | sanctioned (hon : c.On) (h : Sanctioned i r pvp) : Ruling i r pvp true
  | said (hon : c.On) (hu : ¬ Unprovoked i r pvp) (hs : ¬ Sanctioned i r pvp) {b : Bool}
    (h : c.Says (rulePath i r pvp) b) : Ruling i r pvp b
  | unsaid (hon : c.On) (hu : ¬ Unprovoked i r pvp) (hs : ¬ Sanctioned i r pvp) (h : c.Silent (rulePath i r pvp)) :
    Ruling i r pvp true

/-- What a document makes of support for what is no player. -/
inductive SupportRuling : Bool → Prop
  | switchedOff (h : c.Says switchPath false) : SupportRuling true
  | said (hon : c.On) {b : Bool} (h : c.Says supportPath b) : SupportRuling b
  | unsaid (hon : c.On) (h : c.Silent supportPath) : SupportRuling true

/-- Two documents say the same at a path, if anything. -/
def AgreesAt (c c' : Config) (path : String) : Prop := ∀ b, c.Says path b ↔ c'.Says path b

variable {c} {c' : Config} {i j : Interaction} {r : Relationship} {pvp b : Bool}

theorem Sanctioned.not_unprovoked (h : Sanctioned i r pvp) : ¬ Unprovoked i r pvp := by
  rintro ⟨-, hoff, -⟩
  obtain ⟨-, hon, -⟩ := h
  simp [hon] at hoff

theorem on_iff : c.On ↔ Rules.areEnabled c = true := by
  rw [On, Rules.areEnabled, Rules.enabledPath_eq, ← Bool.not_eq_false, bool_eq_iff]
  simp

theorem AgreesAt.bool_eq {path : String} (h : AgreesAt c c' path) (default : Bool) :
    c.bool (ConfigPath.ofText path) default = c'.bool (.ofText path) default := by
  rcases c.says_or_silent path with ⟨b, hb⟩ | hsilent
  · rw [hb.bool_eq, ((h b).mp hb).bool_eq]
  · rcases c'.says_or_silent path with ⟨b, hb⟩ | hsilent'
    · rw [((h b).mpr hb).bool_eq, hb.bool_eq]
    · rw [hsilent.bool_eq, hsilent'.bool_eq]

end Config

namespace Rules

variable (c : Config) (i : Interaction) (r : Relationship) (pvp : Bool)

theorem load_of_off {c : Config} (h : c.Says switchPath false) : load c = permissive := by
  have hoff : areEnabled c = false := by
    rw [areEnabled, enabledPath_eq]
    exact h.bool_eq true
  rw [load, hoff]
  rfl

open Classical in
theorem isEnabled_load_of_on (hon : c.On) : (load c).isEnabled i r pvp =
    if Config.Unprovoked i r pvp then false else if Config.Sanctioned i r pvp then true
    else c.bool (.ofText (rulePath i r pvp)) true := by
  rw [load, if_pos (Config.on_iff.mp hon)]
  show (RuleMatrix.load c).enabled ⟨r, i.isOffense, pvp⟩ = _
  rw [RuleMatrix.enabled_load, RuleMatrix.entry, RuleKey.path_eq]
  unfold Config.Unprovoked Config.Sanctioned
  cases hi : i.isOffense
  · simp
  · cases hp : pvp
    · simp
    · simp

theorem isEnabled_load_iff (b : Bool) : (load c).isEnabled i r pvp = b ↔ c.Ruling i r pvp b := by
  by_cases hon : c.On
  · rw [isEnabled_load_of_on c i r pvp hon]
    constructor
    · intro h
      split at h
      · next hu =>
        subst h
        exact .unprovoked hon hu
      · next hu =>
        split at h
        · next hs =>
          subst h
          exact .sanctioned hon hs
        · next hs =>
          rcases (c.bool_eq_iff _ _ _).mp h with hb | ⟨hsilent, rfl⟩
          · exact .said hon hu hs hb
          · exact .unsaid hon hu hs hsilent
    · intro h
      cases h with
      | switchedOff h => exact absurd h hon
      | unprovoked _ hu => rw [if_pos hu]
      | sanctioned _ hs => rw [if_neg hs.not_unprovoked, if_pos hs]
      | said _ hu hs h => rw [if_neg hu, if_neg hs, h.bool_eq]
      | unsaid _ hu hs h => rw [if_neg hu, if_neg hs, h.bool_eq]
  · have hoff : c.Says switchPath false := Classical.not_not.mp hon
    rw [load_of_off hoff]
    constructor
    · rintro rfl
      exact .switchedOff hoff
    · intro h
      cases h with
      | switchedOff => rfl
      | unprovoked hon' => exact absurd hoff hon'
      | sanctioned => rfl
      | said hon' => exact absurd hoff hon'
      | unsaid => rfl

theorem supportOnMobs_load_iff (b : Bool) : (load c).supportOnMobs = b ↔ c.SupportRuling b := by
  by_cases hon : c.On
  · have hload : (load c).supportOnMobs = c.bool (.ofText Fray.supportPath) true := by
      rw [load, if_pos (Config.on_iff.mp hon), ← RuleMatrix.supportPath_eq]
      exact RuleMatrix.supportOnMobs_load c
    rw [hload, Config.bool_eq_iff]
    constructor
    · rintro (hb | ⟨hsilent, rfl⟩)
      · exact .said hon hb
      · exact .unsaid hon hsilent
    · intro h
      cases h with
      | switchedOff h => exact absurd h hon
      | said _ h => exact Or.inl h
      | unsaid _ h => exact Or.inr ⟨h, rfl⟩
  · have hoff : c.Says switchPath false := Classical.not_not.mp hon
    rw [load_of_off hoff]
    constructor
    · rintro rfl
      exact .switchedOff hoff
    · intro h
      cases h with
      | switchedOff => rfl
      | said hon' => exact absurd hoff hon'
      | unsaid => rfl

/-- The rules of a configuration in closed form. -/
structure Described (c : Config) : Prop where
  ruling : ∀ i r pvp b, (load c).isEnabled i r pvp = b ↔ c.Ruling i r pvp b
  support : ∀ b, (load c).supportOnMobs = b ↔ c.SupportRuling b
  /-- An answer hangs on two places of the document. -/
  places : ∀ c' i r pvp, c.AgreesAt c' switchPath → c.AgreesAt c' (rulePath i r pvp) →
    (load c).isEnabled i r pvp = (load c').isEnabled i r pvp
  /-- Skills and actions of one side are ruled alike. -/
  sides : ∀ i j r pvp, i.isOffense = j.isOffense → (load c).isEnabled i r pvp = (load c).isEnabled j r pvp

theorem on_of_agreesAt {c c' : Config} (h : c.AgreesAt c' switchPath) : c.On ↔ c'.On := not_congr (h false)

/-- Whatever the document is, its rules have the closed form. -/
theorem load_described (c : Config) : Described c where
  ruling i r pvp b := isEnabled_load_iff c i r pvp b
  support b := supportOnMobs_load_iff c b
  places c' i r pvp hswitch hrule := by
    by_cases hon : c.On
    · rw [isEnabled_load_of_on c i r pvp hon, isEnabled_load_of_on c' i r pvp ((on_of_agreesAt hswitch).mp hon),
        hrule.bool_eq]
    · have hoff : c.Says switchPath false := Classical.not_not.mp hon
      rw [load_of_off hoff, load_of_off ((hswitch false).mp hoff)]
  sides i j r pvp hij := by
    have hpath : rulePath i r pvp = rulePath j r pvp := by
      unfold rulePath
      rw [hij]
    by_cases hon : c.On
    · rw [isEnabled_load_of_on c i r pvp hon, isEnabled_load_of_on c j r pvp hon, hpath]
      unfold Config.Unprovoked Config.Sanctioned
      rw [hij]
    · rw [load_of_off (Classical.not_not.mp hon)]
      rfl

end Rules
end Fray
