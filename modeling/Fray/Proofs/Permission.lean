import Fray.Proofs.Gatekeeping
import Fray.Proofs.Outcome

/-! What players may strike. Every blow that is applied for a player has passed the gate, in the state of the game
    that the blow found; and a blow that does not pass is denied before anyone hears of it. -/

namespace Fray

open Act

/-- What the gate checks when an attack is dealt by a player. -/
def Attack.interaction {α : Type} [Amount α] (a : Attack α) : Interaction :=
  if a.damage.hasType .skill then .offenseSkill else .offenseAction

theorem Attack.isOffense_interaction {α : Type} [Amount α] (a : Attack α) : a.interaction.isOffense = true := by
  unfold Attack.interaction
  split <;> rfl

namespace Gate

variable {η α : Type} [Host η α] {g : Gate} {host : η} {attacker target : EntityId} {i : Interaction}

/-- The attacker may strike the target in the state that the host is in. -/
structure Permits (g : Gate) (host : η) (attacker target : EntityId) (i : Interaction) : Prop where
  distinct : attacker ≠ target
  attackerLives : Host.alive host attacker = true
  targetLives : Host.alive host target = true
  inReach : Host.targetable host target = true
  unrestricted : ∀ permits ∈ g.restrictions, permits attacker target i = true
  pvp : Host.player host target = true → Host.pvp host target = true
  related : Host.player host target = true →
    ∀ classify ∈ g.classifiers, g.rules.isEnabled i (classify attacker target) true = true

/-- The gate lets an offense pass exactly when the attacker may strike the target. -/
theorem canInteract_iff_permits (hi : i.isOffense = true) :
    g.canInteract host attacker target i = true ↔ g.Permits host attacker target i := by
  rw [canInteract_iff_passes]
  constructor
  · rintro ⟨⟨hne, ha, ht, hr⟩, hun, hpvp, hrel, -⟩
    refine ⟨hne, ha, ht, hr, hun, fun hplayer => hpvp hplayer hi, fun hplayer => ?_⟩
    simpa only [hpvp hplayer hi] using hrel hplayer
  · rintro ⟨hne, ha, ht, hr, hun, hpvp, hrel⟩
    refine ⟨⟨hne, ha, ht, hr⟩, hun, fun hplayer _ => hpvp hplayer, fun hplayer => ?_, fun _ => Or.inl hi⟩
    simpa only [hpvp hplayer] using hrel hplayer

end Gate

namespace World

variable {α η : Type}

/-- Attacks keep everything but their damage. -/
structure DamageOnly (w v : World α η) : Prop where
  size : w.windows.attacks.size ≤ v.windows.attacks.size
  attack : ∀ r < w.windows.attacks.size, ∃ damage, v.windows.attack r = { w.windows.attack r with damage }

theorem lasting_damageOnly : Lasting (DamageOnly (α := α) (η := η)) where
  refl w := ⟨Nat.le_refl _, fun r _ => ⟨(w.windows.attack r).damage, rfl⟩⟩
  trans h₁ h₂ := by
    refine ⟨Nat.le_trans h₁.size h₂.size, fun r hr => ?_⟩
    obtain ⟨d₁, h₁'⟩ := h₁.attack r hr
    obtain ⟨d₂, h₂'⟩ := h₂.attack r (Nat.lt_of_lt_of_le hr h₁.size)
    exact ⟨d₂, by rw [h₂', h₁']⟩

variable [Amount α] [Host η α]

theorem isDenied_eq_true_iff {w : World α η} {k : WindowKey} {a : Attack α} {wielder : Wielder}
    (ha : a.attacker = some wielder) :
    isDenied w k a = true ↔ Host.player w.host wielder.entity = true ∧
      ¬ w.gate.Permits w.host wielder.entity k.target a.interaction := by
  rw [← Gate.canInteract_iff_permits a.isOffense_interaction]
  simp [isDenied, ha, Attack.interaction]

theorem Sought.isDenied_eq {w v : World α η} {b : Blow α} {r : AttackRef} (h : Sought w b r v) (k : WindowKey)
    (a : Attack α) : isDenied v k a = isDenied w k a := by
  simp only [isDenied, h.located.frame.1, h.located.frame.2.1]

theorem Located.lt_size {w v : World α η} {b : Blow α} {r : AttackRef} (hw : w.windows.Reachable)
    (h : Located w b r v) : r < v.windows.attacks.size := by
  cases h with
  | known h => exact hw.sound.given _ (Windows.mem_of_find? h)
  | @discovered a j h ha =>
    exact (hw.sound.register b.key a).given _ (Windows.mem_of_find? (w.windows.find?_register b.key a))

/-- The attack shown to listeners that change nothing but its damage keeps its attacker. -/
theorem Shown.attacker_eq {l : Listeners α η} (hl : ∀ id r cancelled, Act.Within DamageOnly (l.attack id r cancelled))
    {b : Blow α} {w v u : World α η} (hw : w.windows.Reachable) {r : AttackRef} {cancelled : Bool}
    (h : Shown l b w r v cancelled u) : (u.windows.attack r).attacker = (v.windows.attack r).attacker := by
  have hask : DamageOnly (v.announced (.attack r)) (after (l.askAttack r) v) :=
    Listeners.ask_within lasting_damageOnly (fun id cancelled => hl id r cancelled) v
  have hr : r < v.windows.attacks.size := h.sought.located.lt_size hw
  obtain ⟨damage, ha⟩ := hask.attack r hr
  rw [h.closed]
  simp only [Windows.attack_close]
  rw [ha]
  rfl

/-- An attack that is applied for a player passed the gate as it was when the blow was handed over. -/
theorem Shown.permits {l : Listeners α η} (hl : ∀ id r cancelled, Act.Within DamageOnly (l.attack id r cancelled))
    {b : Blow α} {w v u : World α η} (hw : w.windows.Reachable) {r : AttackRef} {cancelled : Bool}
    (h : Shown l b w r v cancelled u) {wielder : Wielder} (ha : (u.windows.attack r).attacker = some wielder)
    (hp : Host.player w.host wielder.entity = true) :
    ∃ checked, w.behind b = .ok checked ∧ checked.attacker = some wielder ∧
      w.gate.Permits w.host wielder.entity b.target checked.interaction := by
  have hv : (v.windows.attack r).attacker = some wielder := (h.attacker_eq hl hw).symm.trans ha
  refine ⟨v.windows.attack r, h.sought.located.behind_eq, hv, ?_⟩
  -- The gate checked the attack in the world `v`, before any listener was asked.
  have hperm := h.permitted
  rw [h.sought.isDenied_eq] at hperm
  by_cases hnot : w.gate.Permits w.host wielder.entity b.target (v.windows.attack r).interaction
  · exact hnot
  · have hdenied := (isDenied_eq_true_iff (k := b.key) hv).mpr ⟨hp, hnot⟩
    simp [hdenied] at hperm

/-- A blow whose attack a player may not deal is denied: it is cancelled, its window is closed, and no one hears
    of it. -/
theorem Exit.denied_of_not_permits {l : Listeners α η} {b b' : Blow α} {w w' : World α η} {o : Outcome α}
    (h : Exit l b w o b' w') (hz : ¬ Amount.IsZero b.amount) (hc : b.cancelled = false) {checked : Attack α}
    (hb : w.behind b = .ok checked) (hd : isDenied w b.key checked = true) :
    o = .denied ∧ b' = b.cancel ∧ w'.history = w.history ∧ w'.windows.find? b.key = none := by
  -- An attack that is shown to listeners passed the gate, so every later exit is ruled out.
  have hshown : ∀ {r v cancelled u}, ¬ Shown l b w r v cancelled u := by
    intro r v cancelled u hs
    have hperm := hs.permitted
    have hattack : v.windows.attack r = checked := by simpa [hb, eq_comm] using hs.sought.located.behind_eq
    rw [hs.sought.isDenied_eq, hattack] at hperm
    simp [hperm] at hd
  cases h with
  | ignored hz' => exact absurd hz' hz
  | withdrawn _ hc' => simp [hc] at hc'
  | baseless _ _ hb' => simp [hb] at hb'
  | denied _ _ hs _ =>
    refine ⟨rfl, rfl, hs.located.frame.2.2.2, ?_⟩
    simp [Windows.close_of_find? hs.located.found, Windows.find?_remove]
  | stopped hs => exact absurd hs hshown
  | spent hs _ => exact absurd hs hshown
  | applied hs _ _ _ => exact absurd hs hshown

/-- Whoever is struck by a player may be struck by that player. A blow is applied for a player only when the player
    may strike its target, with a skill exactly when the attack was one of a skill when it was checked; and a blow
    that the player may not deal is denied. -/
theorem resolve_permits {l : Listeners α η} (hl : ∀ id r cancelled, Act.Within DamageOnly (l.attack id r cancelled))
    {w : World α η} (hw : w.windows.Reachable) (b : Blow α) :
    (∀ d killed, (answer (resolve l b) w).1 = .applied d killed →
      ∃ r a, FinalizedAs l b w r a ∧ a.damage.dealt = d ∧
        ∀ wielder, a.attacker = some wielder → Host.player w.host wielder.entity = true →
          ∃ checked, w.behind b = .ok checked ∧ checked.attacker = some wielder ∧
            w.gate.Permits w.host wielder.entity b.target checked.interaction) ∧
    (∀ checked wielder, ¬ Amount.IsZero b.amount → b.cancelled = false → w.behind b = .ok checked →
      checked.attacker = some wielder → Host.player w.host wielder.entity = true →
      ¬ w.gate.Permits w.host wielder.entity b.target checked.interaction →
      (answer (resolve l b) w).1 = .denied ∧ (answer (resolve l b) w).2 = b.cancel ∧
        (after (resolve l b) w).history = w.history ∧ (after (resolve l b) w).windows.find? b.key = none) := by
  have hexit := resolve_exit l b w
  refine ⟨fun d killed ho => ?_, fun checked wielder hz hc hb ha hp hnot => ?_⟩
  · rw [ho] at hexit
    generalize (answer (resolve l b) w).2 = b', after (resolve l b) w = w' at hexit
    cases hexit with
    | applied hs _ ha _ =>
      refine ⟨_, _, ⟨_, _, hs, ha⟩, rfl, fun wielder hattacker hp => ?_⟩
      exact hs.permits hl hw (ha ▸ hattacker) hp
  · exact hexit.denied_of_not_permits hz hc hb ((isDenied_eq_true_iff (k := b.key) ha).mpr ⟨hp, hnot⟩)

end World

/-! ### A duel and a truce -/

def truce : World Rat (Arena Rat) := { duel with host := { duel.host with pvp := false } }

theorem exists_behind_stroke {w : World Rat (Arena Rat)}
    (h : (w.behind stroke).toOption.bind (·.attacker) = some duelist) :
    ∃ checked, w.behind stroke = .ok checked ∧ checked.attacker = some duelist := by
  cases hb : w.behind stroke with
  | error fault => simp [hb, Except.toOption] at h
  | ok checked => exact ⟨checked, rfl, by simpa [hb, Except.toOption] using h⟩

/-- In the duel the stroke is permitted, and under the truce it is denied. -/
theorem permits_stroke :
    (∃ checked, duel.behind stroke = .ok checked ∧
      duel.gate.Permits duel.host duelist.entity stroke.target checked.interaction) ∧
    (answer (World.resolve .silent stroke) truce).1 = .denied := by
  have hl : ∀ id r cancelled, Act.Within (World.DamageOnly (α := Rat) (η := Arena Rat))
      (Listeners.silent.attack id r cancelled) :=
    (Listeners.silent_within World.lasting_damageOnly).attack
  constructor
  · have hw : duel.windows.Reachable := .start
    obtain ⟨r, a, ⟨v, u, hs, ha⟩, -, hpermits⟩ :=
      (World.resolve_permits hl hw stroke).1 6 true (by decide +kernel)
    obtain ⟨checked, hb, hattacker⟩ := exists_behind_stroke (w := duel) (by decide +kernel)
    have hv : v.windows.attack r = checked := by simpa [hb, eq_comm] using hs.sought.located.behind_eq
    have hdealer : a.attacker = some duelist := by rw [← ha, hs.attacker_eq hl hw, hv, hattacker]
    obtain ⟨checked', hb', -, hp⟩ := hpermits duelist hdealer (by decide +kernel)
    exact ⟨checked', hb', hp⟩
  · have hw : truce.windows.Reachable := .start
    obtain ⟨checked, hb, hattacker⟩ := exists_behind_stroke (w := truce) (by decide +kernel)
    have hnot : ¬ truce.gate.Permits truce.host duelist.entity stroke.target checked.interaction := by
      intro hp
      exact absurd (hp.pvp (by decide +kernel)) (by decide +kernel)
    exact ((World.resolve_permits hl hw stroke).2 checked duelist (by decide +kernel) rfl hb hattacker
      (by decide +kernel) hnot).1

end Fray
