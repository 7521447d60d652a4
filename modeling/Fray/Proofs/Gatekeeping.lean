import Fray.Interaction.Gate

/-! What the gate asks. Its answer is one conjunction: over source and target, over every restriction and, where the
    target is a player, over every relationship. So no order matters, and whatever is added to a gate only denies
    more. -/

namespace Fray

/-- The one rules enable nothing that the others do not. -/
structure Rules.Within (r r' : Rules) : Prop where
  supportOnMobs : r.supportOnMobs = true → r'.supportOnMobs = true
  isEnabled : ∀ i relationship pvp, r.isEnabled i relationship pvp = true → r'.isEnabled i relationship pvp = true

theorem Rules.Within.refl (r : Rules) : r.Within r := ⟨id, fun _ _ _ => id⟩

namespace Gate

variable {η α : Type} [Host η α] {g g' : Gate} {host : η} {source target : EntityId} {i : Interaction}

/-- The target is another living entity, and the source can get at it. -/
structure Meets (host : η) (source target : EntityId) : Prop where
  distinct : source ≠ target
  sourceLives : Host.alive host source = true
  targetLives : Host.alive host target = true
  inReach : Host.targetable host target = true

/-- What has to hold of an interaction for the gate to let it pass. -/
structure Passes (g : Gate) (host : η) (source target : EntityId) (i : Interaction) : Prop
    extends Meets host source target where
  unrestricted : ∀ permits ∈ g.restrictions, permits source target i = true
  pvp : Host.player host target = true → i.isOffense = true → Host.pvp host target = true
  related : Host.player host target = true →
    ∀ classify ∈ g.classifiers, g.rules.isEnabled i (classify source target) (Host.pvp host target) = true
  mob : Host.player host target = false → i.isOffense = true ∨ g.rules.supportOnMobs = true

theorem meets_iff : Meets host source target ↔ (source = target || !Host.alive host source ||
    !Host.alive host target || !Host.targetable host target) = false := by
  simp only [Bool.or_eq_false_iff, decide_eq_false_iff_not, Bool.not_eq_false']
  constructor
  · rintro ⟨hne, hs, ht, hr⟩
    exact ⟨⟨⟨hne, hs⟩, ht⟩, hr⟩
  · rintro ⟨⟨⟨hne, hs⟩, ht⟩, hr⟩
    exact ⟨hne, hs, ht, hr⟩

theorem unrestricted_iff : (∀ permits ∈ g.restrictions, permits source target i = true) ↔
    (g.restrictions.any fun permits => !permits source target i) = false := by
  simp [List.any_eq_false]

theorem canInteract_iff_passes : g.canInteract host source target i = true ↔ g.Passes host source target i := by
  unfold canInteract
  split
  · next hm =>
    simp only [Bool.false_eq_true, false_iff]
    intro hp
    simp [meets_iff.mp hp.toMeets] at hm
  · next hm =>
    have hm : Meets host source target := meets_iff.mpr (Bool.not_eq_true _ ▸ hm)
    split
    · next hr =>
      simp only [Bool.false_eq_true, false_iff]
      intro hp
      simp [unrestricted_iff.mp hp.unrestricted] at hr
    · next hr =>
      have hr := unrestricted_iff.mpr (Bool.not_eq_true _ ▸ hr)
      cases hplayer : Host.player host target with
      | false =>
        simp only [Bool.false_eq_true, if_false, Bool.or_eq_true]
        constructor
        · exact fun h => ⟨hm, hr, fun hp => by simp [hplayer] at hp, fun hp => by simp [hplayer] at hp, fun _ => h⟩
        · exact fun hp => hp.mob hplayer
      | true =>
        simp only [if_true, isAllowed, if_neg hm.distinct]
        constructor
        · intro h
          split at h
          · simp at h
          · next hpvp =>
            refine ⟨hm, hr, fun _ hi => ?_, fun _ => List.all_eq_true.mp h, fun hp => by simp [hplayer] at hp⟩
            simpa [hi] using hpvp
        · intro hp
          have hpvp := hp.pvp hplayer
          split
          · next h =>
            obtain ⟨hi, hoff⟩ : i.isOffense = true ∧ Host.pvp host target = false := by simpa using h
            simp [hpvp hi] at hoff
          · exact List.all_eq_true.mpr (hp.related hplayer)

/-! ### Gates compared -/

/-- The other gate has every restriction and every classifier of this one, and its rules enable no more. -/
structure Tightens (g g' : Gate) : Prop where
  rules : g'.rules.Within g.rules
  restrictions : g.restrictions ⊆ g'.restrictions
  classifiers : g.classifiers ⊆ g'.classifiers

theorem Passes.of_tightens (hp : g'.Passes host source target i) (h : g.Tightens g') :
    g.Passes host source target i where
  toMeets := hp.toMeets
  unrestricted permits hm := hp.unrestricted permits (h.restrictions hm)
  pvp := hp.pvp
  related hplayer classify hm := h.rules.isEnabled _ _ _ (hp.related hplayer classify (h.classifiers hm))
  mob hplayer := (hp.mob hplayer).imp_right h.rules.supportOnMobs

theorem Tightens.permits (h : g.Tightens g') (hp : g'.canInteract host source target i = true) :
    g.canInteract host source target i = true :=
  canInteract_iff_passes.mpr ((canInteract_iff_passes.mp hp).of_tightens h)

theorem Tightens.denies (h : g.Tightens g') (hd : g.canInteract host source target i = false) :
    g'.canInteract host source target i = false := by
  rw [← Bool.not_eq_true] at hd ⊢
  exact mt h.permits hd

theorem canInteract_congr (h : g.Tightens g') (h' : g'.Tightens g) :
    g'.canInteract host source target i = g.canInteract host source target i :=
  Bool.eq_iff_iff.mpr ⟨h.permits, h'.permits⟩

theorem canInteract_eq_false_of (h : ¬ g.Passes host source target i) : g.canInteract host source target i = false := by
  rw [← Bool.not_eq_true, canInteract_iff_passes]
  exact h

/-- On a target that is no player an offense is only a matter of the two entities and of the restrictions. -/
theorem passes_mob_iff (hplayer : Host.player host target = false) (hi : i.isOffense = true) :
    g.Passes host source target i ↔
      Meets host source target ∧ ∀ permits ∈ g.restrictions, permits source target i = true := by
  constructor
  · exact fun hp => ⟨hp.toMeets, hp.unrestricted⟩
  · rintro ⟨hm, hr⟩
    exact ⟨hm, hr, fun hp => by simp [hplayer] at hp, fun hp => by simp [hplayer] at hp, fun _ => Or.inl hi⟩

/-! ### The answers of a gate -/

/-- How the answer follows the gate as that changes, and what is denied whatever the gate is. -/
structure Answers (g : Gate) (host : η) (source target : EntityId) (i : Interaction) : Prop where
  /-- Only what is registered counts, in no order and however often. -/
  unordered : ∀ restrictions classifiers, (∀ r, r ∈ restrictions ↔ r ∈ g.restrictions) →
    (∀ c, c ∈ classifiers ↔ c ∈ g.classifiers) →
    canInteract { g with restrictions, classifiers } host source target i = g.canInteract host source target i
  restricted : ∀ restrictions, g.restrictions ⊆ restrictions → g.canInteract host source target i = false →
    canInteract { g with restrictions } host source target i = false
  classified : ∀ classifiers, g.classifiers ⊆ classifiers → g.canInteract host source target i = false →
    canInteract { g with classifiers } host source target i = false
  loosened : ∀ rules, g.rules.Within rules → g.canInteract host source target i = true →
    canInteract { g with rules } host source target i = true
  self : source = target → g.canInteract host source target i = false
  dead : Host.alive host source = false ∨ Host.alive host target = false → g.canInteract host source target i = false
  /-- A host reports whom it does not know as dead. -/
  unknown : ∀ known : EntityId → Prop, (∀ e, ¬ known e → Host.alive host e = false) →
    ¬ known source ∨ ¬ known target → g.canInteract host source target i = false
  untargetable : Host.targetable host target = false → g.canInteract host source target i = false
  peaceful : i.isOffense = true → Host.player host target = true → Host.pvp host target = false →
    g.canInteract host source target i = false
  unrelated : Host.player host target = false → ∀ classifiers,
    canInteract { g with classifiers } host source target i = g.canInteract host source target i
  offense : Host.player host target = false → i.isOffense = true →
    (g.canInteract host source target i = false ↔
      source = target ∨ Host.alive host source = false ∨ Host.alive host target = false ∨
        Host.targetable host target = false ∨ ∃ permits ∈ g.restrictions, permits source target i = false)

/-- Whatever the host, the rules and the lists of a gate are, it answers so. -/
theorem canInteract_answers (g : Gate) (host : η) (source target : EntityId) (i : Interaction) :
    g.Answers host source target i where
  unordered restrictions classifiers hr hc :=
    canInteract_congr ⟨.refl _, fun r => (hr r).mpr, fun c => (hc c).mpr⟩
      ⟨.refl _, fun r => (hr r).mp, fun c => (hc c).mp⟩
  restricted restrictions hr := Tightens.denies ⟨.refl _, hr, fun _ => id⟩
  classified classifiers hc := Tightens.denies ⟨.refl _, fun _ => id, hc⟩
  loosened rules hrules := Tightens.permits ⟨hrules, fun _ => id, fun _ => id⟩
  self h := canInteract_eq_false_of fun hp => hp.distinct h
  dead h := canInteract_eq_false_of fun hp => by
    rcases h with h | h
    · simp [hp.sourceLives] at h
    · simp [hp.targetLives] at h
  unknown known hknown h := canInteract_eq_false_of fun hp => by
    rcases h with h | h
    · have hdead := hknown source h
      simp [hp.sourceLives] at hdead
    · have hdead := hknown target h
      simp [hp.targetLives] at hdead
  untargetable h := canInteract_eq_false_of fun hp => by simp [hp.inReach] at h
  peaceful hi hplayer h := canInteract_eq_false_of fun hp => by simp [hp.pvp hplayer hi] at h
  unrelated hplayer classifiers := by
    rw [Bool.eq_iff_iff, canInteract_iff_passes, canInteract_iff_passes]
    constructor
    · exact fun hp => ⟨hp.toMeets, hp.unrestricted, hp.pvp, fun h => by simp [hplayer] at h, hp.mob⟩
    · exact fun hp => ⟨hp.toMeets, hp.unrestricted, hp.pvp, fun h => by simp [hplayer] at h, hp.mob⟩
  offense hplayer hi := by
    have hmeets : ¬ Meets host source target ↔ source = target ∨ Host.alive host source = false ∨
        Host.alive host target = false ∨ Host.targetable host target = false := by
      simp only [meets_iff, Bool.not_eq_false, Bool.or_eq_true, decide_eq_true_eq, Bool.not_eq_eq_eq_not, Bool.not_true,
        or_assoc]
    have hrestricted : ¬ (∀ permits ∈ g.restrictions, permits source target i = true) ↔
        ∃ permits ∈ g.restrictions, permits source target i = false := by
      simp
    rw [← Bool.not_eq_true, canInteract_iff_passes, passes_mob_iff hplayer hi, Classical.not_and_iff_not_or_not, hmeets,
      hrestricted]
    simp only [or_assoc]

end Gate
end Fray
