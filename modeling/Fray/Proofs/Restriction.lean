import Fray.Proofs.Collecting
import Fray.Proofs.Conservation
import Fray.Proofs.Permission

/-! Restrictions of skills. A restriction is asked about the attack as it stands before any listener is told of it.
    It covers the attack that is finalized as long as no listener makes an attack of a skill out of one that was
    none: a packet that a listener contributes while the attack is shown is asked about by nobody. -/

namespace Fray

open Act

theorem Attack.interaction_of_skill {α : Type} [Amount α] {a : Attack α} (h : a.damage.hasType .skill = true) :
    a.interaction = .offenseSkill := by
  simp [Attack.interaction, h]

namespace Damage

variable {α : Type} [Amount α] {d d' : Damage α} {t : DamageType}

omit [Amount α] in
theorem hasType_merge : (d.merge d').hasType t = (d.hasType t || d'.hasType t) := by
  simp [hasType, merge]

theorem hasType_new {value : α} {element : Option Element} {types : List DamageType}
    (h : Damage.new value element types = .ok d) : d.hasType t = types.contains t := by
  obtain ⟨-, rfl⟩ := new_eq_ok.mp h
  simp [hasType, Packet.hasType, Packet.plain, ofPacket]

end Damage

namespace Windows

variable {α : Type} {w : Windows α} {r : AttackRef}

/-- A contribution leaves an attack as it is, or is merged into it. -/
theorem attack_register_cases (hr : r < w.attacks.size) (k : WindowKey) (a : Attack α) :
    (w.register k a).2.attack r = w.attack r ∨
    (w.register k a).2.attack r = { w.attack r with damage := (w.attack r).damage.merge a.damage } := by
  cases hk : w.find? k with
  | none =>
    rw [register_of_none hk]
    exact Or.inl (by simp [attack, Array.getElem?_push, Nat.ne_of_lt hr])
  | some s =>
    rw [register_of_some hk]
    by_cases hs : r = s
    · subst hs
      exact Or.inr (attack_update _ hr _)
    · exact Or.inl (attack_update_of_ne _ hs _)

end Windows

namespace World

variable {α η : Type}

theorem register_damageOnly (k : WindowKey) (a : Attack α) :
    Act.Within (DamageOnly (η := η)) (register k a) := by
  intro w
  obtain ⟨j, hj⟩ := after_register k a w
  rw [hj]
  refine ⟨Windows.size_le_register _ k a, fun r hr => ?_⟩
  rcases Windows.attack_register_cases hr k a with h | h
  · exact ⟨_, h⟩
  · exact ⟨_, h⟩

/-- Attacks keep everything but their damage, and none of them becomes an attack of a skill. -/
structure Plain (w v : World α η) : Prop extends DamageOnly w v where
  skill : ∀ r < w.windows.attacks.size, (v.windows.attack r).damage.hasType .skill = true →
    (w.windows.attack r).damage.hasType .skill = true

theorem lasting_plain : Lasting (Plain (α := α) (η := η)) where
  refl w := ⟨lasting_damageOnly.refl w, fun _ _ h => h⟩
  trans h₁ h₂ := ⟨lasting_damageOnly.trans h₁.toDamageOnly h₂.toDamageOnly, fun r hr h =>
    h₁.skill r hr (h₂.skill r (Nat.lt_of_lt_of_le hr h₁.size) h)⟩

theorem register_plain (k : WindowKey) {a : Attack α} (ha : a.damage.hasType .skill = false) :
    Act.Within (Plain (η := η)) (register k a) := by
  intro w
  refine ⟨register_damageOnly k a w, fun r hr h => ?_⟩
  obtain ⟨j, hj⟩ := after_register k a w
  rw [hj] at h
  rcases Windows.attack_register_cases hr k a with he | he
  · exact he ▸ h
  · rw [he] at h
    simpa [Damage.hasType_merge, ha] using h

variable [Amount α] [Host η α]

theorem attack_damageOnly (wielder : Wielder) (target : EntityId) (value : α) (element : Option Element)
    (types : List DamageType) : Act.Within DamageOnly (attack (η := η) wielder target value element types).run := by
  intro w
  cases hd : Damage.new value element types with
  | error fault => simpa [attack, hd] using lasting_damageOnly.refl w
  | ok d => simpa [attack, hd] using register_damageOnly _ _ w

/-- A contribution that is no skill makes no attack one of a skill. -/
theorem attack_plain (wielder : Wielder) (target : EntityId) (value : α) (element : Option Element)
    {types : List DamageType} (ht : DamageType.skill ∉ types) :
    Act.Within Plain (attack (η := η) wielder target value element types).run := by
  intro w
  cases hd : Damage.new value element types with
  | error fault => simpa [attack, hd] using lasting_plain.refl w
  | ok d =>
    have hskill : d.hasType .skill = false := by simp [Damage.hasType_new hd, ht]
    simpa [attack, hd] using register_plain (η := η) _ (a := ⟨d, target, some wielder, .generic⟩) hskill w

variable {l : Listeners α η} {b : Blow α} {w v u : World α η} {r : AttackRef} {cancelled : Bool}

/-- An attack that is shown to listeners who bring no skill is one of a skill only if it was before. -/
theorem Shown.skill (hl : ∀ id r cancelled, Act.Within Plain (l.attack id r cancelled)) (hw : w.windows.Reachable)
    (h : Shown l b w r v cancelled u) (hs : (u.windows.attack r).damage.hasType .skill = true) :
    (v.windows.attack r).damage.hasType .skill = true := by
  have hask : Plain (v.announced (.attack r)) (after (l.askAttack r) v) :=
    Listeners.ask_within lasting_plain (fun id cancelled => hl id r cancelled) v
  have hr : r < v.windows.attacks.size := h.sought.located.lt_size hw
  rw [h.closed] at hs
  exact hask.skill r hr (by simpa using hs)

/-- An attack that is applied for a player passed every restriction as the attack it was when it was checked. So an
    attack of a skill passed the restrictions of skills, if it was one of a skill by then, or if no listener made it
    one afterwards. -/
theorem resolve_restricted (hl : ∀ id r cancelled, Act.Within DamageOnly (l.attack id r cancelled))
    (hw : w.windows.Reachable) {d : α} {killed : Bool} (ho : (answer (resolve l b) w).1 = .applied d killed) :
    ∃ r a checked, FinalizedAs l b w r a ∧ a.damage.dealt = d ∧ w.behind b = .ok checked ∧
      ∀ wielder, a.attacker = some wielder → Host.player w.host wielder.entity = true →
        (∀ permits ∈ w.gate.restrictions, permits wielder.entity b.target checked.interaction = true) ∧
        (a.damage.hasType .skill = true →
          checked.damage.hasType .skill = true ∨ (∀ id r cancelled, Act.Within Plain (l.attack id r cancelled)) →
          ∀ permits ∈ w.gate.restrictions, permits wielder.entity b.target .offenseSkill = true) := by
  have hexit := resolve_exit l b w
  rw [ho] at hexit
  generalize (answer (resolve l b) w).2 = b', after (resolve l b) w = w' at hexit
  cases hexit with
  | @applied r v u a killer hs hfinal ha hk =>
    have hbehind := hs.sought.located.behind_eq
    refine ⟨r, a, v.windows.attack r, ⟨v, u, hs, ha⟩, rfl, hbehind, fun wielder hattacker hplayer => ?_⟩
    obtain ⟨checked, hb, -, hpermits⟩ := hs.permits hl hw (ha ▸ hattacker) hplayer
    obtain rfl : checked = v.windows.attack r := by simpa [hb] using hbehind
    refine ⟨hpermits.unrestricted, fun hskill hwhy => ?_⟩
    -- Either way the attack was one of a skill before it was shown, so that is what the restrictions were asked.
    have hchecked : (v.windows.attack r).damage.hasType .skill = true := by
      rcases hwhy with hchecked | hplain
      · exact hchecked
      · exact hs.skill hplain hw (ha ▸ hskill)
    rw [← Attack.interaction_of_skill hchecked]
    exact hpermits.unrestricted

/-! ### A duel without skills -/

/-- Skills are banned. -/
def banned : World Rat (Arena Rat) :=
  { seconded with gate := { seconded.gate with restrictions := [fun _ _ i => decide (i ≠ .offenseSkill)] } }

theorem second_plain : ∀ id r cancelled, Act.Within Plain (second.attack id r cancelled) := fun _ _ cancelled =>
  lasting_plain.bind (attack_plain (α := Rat) duelist stroke.target 2 none (by decide)) fun _ => lasting_plain.pure cancelled

/-- A listener that adds a skill to every attack. -/
def spellsword : Listeners Rat (Arena Rat) :=
  { Listeners.silent with
    attack := fun _ _ cancelled => do
      discard (World.attack duelist stroke.target 4 none [.skill]).run
      return cancelled }

theorem spellsword_damageOnly : ∀ id r cancelled, Act.Within DamageOnly (spellsword.attack id r cancelled) :=
  fun _ _ cancelled => lasting_damageOnly.bind (attack_damageOnly (α := Rat) duelist stroke.target 4 none [.skill]) fun _ =>
    lasting_damageOnly.pure cancelled

/-- With a second who brings no skill the stroke is applied under the ban, as the plain attack it was. -/
theorem restricted_stroke : (∀ id r cancelled, Act.Within DamageOnly (second.attack id r cancelled)) ∧
    banned.windows.Reachable ∧ (answer (resolve second stroke) banned).1 = .applied 8 true ∧
    ∃ r a checked, FinalizedAs second stroke banned r a ∧ a.damage.dealt = 8 ∧ banned.behind stroke = .ok checked ∧
      ∀ wielder, a.attacker = some wielder → Host.player banned.host wielder.entity = true →
        a.damage.hasType .skill = false := by
  have hl : ∀ id r cancelled, Act.Within DamageOnly (second.attack id r cancelled) := fun id r cancelled w =>
    (second_plain id r cancelled w).toDamageOnly
  have ho : (answer (resolve second stroke) banned).1 = .applied 8 true := by decide +kernel
  obtain ⟨r, a, checked, hf, hd, hb, hpermits⟩ := resolve_restricted hl .start ho
  refine ⟨hl, .start, ho, r, a, checked, hf, hd, hb, fun wielder hattacker hplayer => ?_⟩
  -- The ban would have been asked about a skill, and it permits none.
  cases hskill : a.damage.hasType .skill with
  | false => rfl
  | true =>
    have hall := (hpermits wielder hattacker hplayer).2 hskill (Or.inr second_plain)
    simp [banned] at hall

/-- The skill that is added while the stroke is shown slips past the ban, which denies the same stroke with the same
    skill in it from the start. -/
theorem spellsword_slips : (∀ id r cancelled, Act.Within DamageOnly (spellsword.attack id r cancelled)) ∧
    (∃ permits ∈ banned.gate.restrictions, permits duelist.entity stroke.target .offenseSkill = false) ∧
    Host.player banned.host duelist.entity = true ∧
    (answer (resolve spellsword stroke) banned).1 = .applied 10 true ∧
    ((after (resolve spellsword stroke) banned).finalizations.any fun a =>
      a.damage.hasType .skill && decide (a.attacker = some duelist)) = true ∧
    (answer (resolve .silent stroke)
      (after (World.attack duelist stroke.target 4 none [.skill]).run banned)).1 = .denied :=
  ⟨spellsword_damageOnly, ⟨_, List.mem_singleton.mpr rfl, rfl⟩, by decide +kernel, by decide +kernel, by decide +kernel,
    by decide +kernel⟩

end World
end Fray
