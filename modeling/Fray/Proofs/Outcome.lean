import Fray.Arena.Basic
import Fray.Proofs.Resolution

/-! What the resolution of a blow answers agrees with what it writes on the blow and with what it tells. The flag of
    the blow, its final damage, the outcome and the events are settled at different points of the resolution, and
    listeners act in between; as long as they resolve no blow of their own, the four agree on every exit. -/

namespace Fray

open Act

deriving instance DecidableEq for Outcome

theorem Attack.killer_eq_some {α : Type} [Amount α] {a : Attack α} {health : Option α} {e : EntityId} :
    a.killer health = some e ↔
      ∃ wielder h, a.attacker = some wielder ∧ health = some h ∧ h ≤ a.damage.dealt ∧ wielder.entity = e := by
  obtain ⟨damage, target, attacker, manner⟩ := a
  rcases attacker with _ | wielder
  · simp [Attack.killer]
  rcases health with _ | h
  · simp [Attack.killer]
  by_cases hd : h ≤ damage.dealt
  · simp [Attack.killer, hd]
  · simp [Attack.killer, hd]

namespace World

variable {α η : Type} [Amount α]

/-- No attack was contributed to the blow, no discoverer makes one of it, and its amount is negative or no number. -/
def Baseless (w : World α η) (b : Blow α) : Prop :=
  w.windows.find? b.key = none ∧ (w.discoverers.findSome? fun discover => discover w.host b) = none ∧ ¬ 0 ≤ b.amount

theorem lasting_told {α η : Type} : Lasting fun u v : World α η => v.told = u.told :=
  ⟨fun _ => rfl, fun h₁ h₂ => h₂.trans h₁⟩

theorem told_conclude {l : Listeners α η} (hl : l.Within fun u v => v.told = u.told) (b : Blow α) (a : Attack α)
    (killer : Option EntityId) (w : World α η) :
    (after (conclude l b a killer) w).told =
      w.told ++ ((killer.toList.map fun e => .kill e b.target a) ++ [.finalized a a.damage.dealt]) := by
  have hfinal : ∀ w, (after (l.tellFinalized a a.damage.dealt) w).told = w.told ++ [.finalized a a.damage.dealt] :=
    fun w => (l.tellFinalized_within lasting_told hl a a.damage.dealt w).trans (told_announced rfl w)
  cases killer with
  | none => simp [conclude, hfinal]
  | some e =>
    have hkill : (after (l.tellKill e b.target a) w).told = w.told ++ [.kill e b.target a] :=
      (l.tellKill_within lasting_told hl e b.target a w).trans (told_announced rfl w)
    simp [conclude, hfinal, hkill]

variable [Host η α]

theorem behind_eq_error_iff_baseless {w : World α η} {b : Blow α} :
    (∃ fault, w.behind b = .error fault) ↔ w.Baseless b := by
  constructor
  · rintro ⟨fault, h⟩
    obtain ⟨h₁, h₂, h₃, -⟩ := behind_eq_error.mp h
    exact ⟨h₁, h₂, h₃⟩
  · rintro ⟨h₁, h₂, h₃⟩
    exact ⟨_, behind_eq_error.mpr ⟨h₁, h₂, h₃, rfl⟩⟩

theorem Sought.not_baseless {w v : World α η} {b : Blow α} {r : AttackRef} (h : Sought w b r v) : ¬ w.Baseless b := by
  intro hb
  obtain ⟨fault, hf⟩ := behind_eq_error_iff_baseless.mpr hb
  simp [h.located.behind_eq] at hf

theorem Shown.told {l : Listeners α η} (hl : l.Within fun u v => v.told = u.told) {b : Blow α} {w v u : World α η}
    {r : AttackRef} {cancelled : Bool} (h : Shown l b w r v cancelled u) : u.told = w.told ++ [.attack r] := by
  have hasked : (after (l.askAttack r) v).told = v.told ++ [.attack r] :=
    (l.askAttack_within lasting_told hl r v).trans (told_announced rfl v)
  have hv : v.told = w.told := by simp [World.told, h.sought.located.frame.2.2.2]
  rw [h.closed]
  exact hasked.trans (by rw [hv])

theorem Shown.not_silent {l : Listeners α η} {b : Blow α} {w v u : World α η} {r : AttackRef} {cancelled : Bool}
    (h : Shown l b w r v cancelled u) {o : Outcome α} (hi : o ≠ .ignored) (hd : o ≠ .denied) :
    ¬ (o = .ignored ∨ b.cancelled = true ∨ w.Baseless b ∨ o = .denied) := by
  rintro (ho | hc | hb | ho)
  · exact hi ho
  · simp [h.stands] at hc
  · exact h.sought.not_baseless hb
  · exact hd ho

/-- An attack is finalized as what its listeners made of it, when they did not cancel it. -/
def FinalizedAs (l : Listeners α η) (b : Blow α) (w : World α η) (r : AttackRef) (a : Attack α) : Prop :=
  ∃ v u, Shown l b w r v false u ∧ u.windows.attack r = a

/-- What the resolution of a blow `b` in a world `w` answered, the blow and the world that it left agree. -/
structure Account (l : Listeners α η) (b : Blow α) (w : World α η) (o : Outcome α) (b' : Blow α) (w' : World α η) :
    Prop where
  applied_iff : ∀ d, (∃ killed, o = .applied d killed) ↔ b'.cancelled = false ∧ b'.final = some d
  withheld : o = .denied ∨ o = .cancelled → b'.cancelled = true ∧ b'.final = none
  ignored_iff : o = .ignored ↔ Amount.IsZero b.amount
  untouched : o = .ignored → b' = b ∧ w' = w
  silent : o = .ignored ∨ b.cancelled = true ∨ w.Baseless b ∨ o = .denied → w'.told = w.told
  stopped_iff : ∀ r, w'.told = w.told ++ [.attack r] ↔ ∃ v u, Shown l b w r v true u
  cancelled_iff : o = .cancelled ↔
    ¬ Amount.IsZero b.amount ∧ (b.cancelled = true ∨ w.Baseless b ∨ ∃ r v u, Shown l b w r v true u)
  spared : ∀ d, o = .applied d false → ∃ r a, FinalizedAs l b w r a ∧ a.damage.dealt = d ∧
    w'.told = w.told ++ [.attack r, .finalized a d]
  slain : ∀ d, o = .applied d true → ∃ r a wielder, FinalizedAs l b w r a ∧ a.damage.dealt = d ∧
    a.attacker = some wielder ∧
    w'.told = w.told ++ [.attack r, .kill wielder.entity b.target a, .finalized a d]
  killed_iff : ∀ d killed r a, o = .applied d killed → FinalizedAs l b w r a →
    (killed = true ↔ ∃ wielder h, a.attacker = some wielder ∧ Host.health w.host b.target = some h ∧ h ≤ d)

/-! ### Each exit gives its account -/

namespace Account

variable {l : Listeners α η} {b b' : Blow α} {w w' : World α η} {o : Outcome α}

theorem ofIgnored (hz : Amount.IsZero b.amount) (hb : b.final = none) : Account l b w .ignored b w where
  applied_iff d := by simp [hb]
  withheld h := by simp at h
  ignored_iff := by simp [hz]
  untouched _ := ⟨rfl, rfl⟩
  silent _ := rfl
  stopped_iff r := by
    constructor
    · intro h
      simp at h
    · rintro ⟨v, u, h⟩
      exact absurd hz h.deals
  cancelled_iff := by simp [hz]
  spared d h := by simp at h
  slain d h := by simp at h
  killed_iff d killed r a h := by simp at h

/-- The blow is withheld before its attack is shown to anyone. -/
theorem ofSilent (hz : ¬ Amount.IsZero b.amount) (hi : o ≠ .ignored) (ha : ∀ d killed, o ≠ .applied d killed)
    (hb' : b'.cancelled = true) (hf : b'.final = none) (ht : w'.told = w.told)
    (hs : ∀ r v cancelled u, ¬ Shown l b w r v cancelled u) (hc : o = .cancelled ↔ b.cancelled = true ∨ w.Baseless b) :
    Account l b w o b' w' where
  applied_iff d := by simp [ha, hb']
  withheld _ := ⟨hb', hf⟩
  ignored_iff := by simp [hi, hz]
  untouched h := absurd h hi
  silent _ := ht
  stopped_iff r := by
    constructor
    · intro h
      simp [ht] at h
    · rintro ⟨v, u, h⟩
      exact absurd h (hs r v true u)
  cancelled_iff := by
    rw [hc]
    constructor
    · rintro (h | h)
      · exact ⟨hz, Or.inl h⟩
      · exact ⟨hz, Or.inr (Or.inl h)⟩
    · rintro ⟨-, h | h | ⟨r, v, u, h⟩⟩
      · exact Or.inl h
      · exact Or.inr h
      · exact absurd h (hs r v true u)
  spared d h := absurd h (ha d false)
  slain d h := absurd h (ha d true)
  killed_iff d killed _ _ h := absurd h (ha d killed)

theorem ofStopped {r : AttackRef} {v : World α η} (hb : b.final = none) (h : Shown l b w r v true w')
    (ht : w'.told = w.told ++ [.attack r]) : Account l b w .cancelled b.cancel w' where
  applied_iff d := by simp [Blow.cancel]
  withheld _ := ⟨rfl, hb⟩
  ignored_iff := by simp [h.deals]
  untouched ho := by simp at ho
  silent hs := absurd hs (h.not_silent (by simp) (by simp))
  stopped_iff r' := by
    constructor
    · intro hr
      obtain rfl : r = r' := by simpa [ht] using hr
      exact ⟨v, w', h⟩
    · rintro ⟨v', u', h'⟩
      obtain ⟨rfl, -⟩ := h.unique h'
      exact ht
  cancelled_iff := by
    simp only [true_iff]
    exact ⟨h.deals, Or.inr (Or.inr ⟨r, v, w', h⟩)⟩
  spared d ho := by simp at ho
  slain d ho := by simp at ho
  killed_iff d killed r a ho := by simp at ho

theorem ofApplied {r : AttackRef} {v u : World α η} {a : Attack α} {killer : Option EntityId}
    (h : Shown l b w r v false u) (ha : u.windows.attack r = a)
    (hk : a.killer (Host.health w.host b.target) = killer)
    (ht : w'.told = w.told ++ .attack r ::
      ((killer.toList.map fun e => .kill e b.target a) ++ [.finalized a a.damage.dealt])) :
    Account l b w (.applied a.damage.dealt killer.isSome) { b with final := some a.damage.dealt } w' where
  applied_iff d := by simp [h.stands]
  withheld ho := by simp at ho
  ignored_iff := by simp [h.deals]
  untouched ho := by simp at ho
  silent hs := absurd hs (h.not_silent (by simp) (by simp))
  stopped_iff r' := by
    constructor
    · intro hr
      simp [ht] at hr
    · rintro ⟨v', u', h'⟩
      obtain ⟨-, -, hc, -⟩ := h.unique h'
      simp at hc
  cancelled_iff := by
    simp only [reduceCtorEq, false_iff]
    rintro ⟨-, hs | hs | ⟨r', v', u', h'⟩⟩
    · simp [h.stands] at hs
    · exact h.sought.not_baseless hs
    · obtain ⟨-, -, hc, -⟩ := h.unique h'
      simp at hc
  spared d ho := by
    simp only [Outcome.applied.injEq, Option.isSome_eq_false_iff, Option.isNone_iff_eq_none] at ho
    obtain ⟨rfl, rfl⟩ := ho
    exact ⟨r, a, ⟨v, u, h, ha⟩, rfl, ht⟩
  slain d ho := by
    simp only [Outcome.applied.injEq, Option.isSome_iff_exists] at ho
    obtain ⟨rfl, e, rfl⟩ := ho
    obtain ⟨wielder, health, hw, -, -, rfl⟩ := Attack.killer_eq_some.mp hk
    exact ⟨r, a, wielder, ⟨v, u, h, ha⟩, rfl, hw, ht⟩
  killed_iff d killed r' a' ho hf := by
    -- A resolution is deterministic, so the finalized attack is the one at hand.
    obtain ⟨v', u', h', rfl⟩ := hf
    obtain ⟨rfl, -, -, rfl⟩ := h.unique h'
    subst ha
    simp only [Outcome.applied.injEq] at ho
    obtain ⟨rfl, rfl⟩ := ho
    rw [Option.isSome_iff_exists]
    constructor
    · rintro ⟨e, rfl⟩
      obtain ⟨wielder, health, hw, hh, hd, -⟩ := Attack.killer_eq_some.mp hk
      exact ⟨wielder, health, hw, hh, hd⟩
    · rintro ⟨wielder, health, hw, hh, hd⟩
      exact ⟨wielder.entity, hk ▸ Attack.killer_eq_some.mpr ⟨wielder, health, hw, hh, hd, rfl⟩⟩

end Account

theorem Exit.account {l : Listeners α η} (hl : l.Within fun u v => v.told = u.told) {b b' : Blow α}
    (hb : b.final = none) {w w' : World α η} {o : Outcome α} (h : Exit l b w o b' w') : Account l b w o b' w' := by
  cases h with
  | ignored hz => exact .ofIgnored hz hb
  | withdrawn hz hc =>
    refine .ofSilent hz (by simp) (by simp) hc hb rfl (fun r v c u hs => ?_) (by simp [hc])
    have hstands := hs.stands
    simp [hc] at hstands
  | baseless hz hc hbase =>
    have hbase := behind_eq_error_iff_baseless.mp ⟨_, hbase⟩
    refine .ofSilent hz (by simp) (by simp) rfl hb rfl (fun r v c u hs => ?_) (by simp [hbase])
    exact hs.sought.not_baseless hbase
  | denied hz hc hs hd =>
    have ht := hs.located.frame.2.2.2
    refine .ofSilent hz (by simp) (by simp) rfl hb (by simp [World.told, ht]) (fun r' v' c u hs' => ?_) ?_
    · obtain ⟨rfl, rfl⟩ := hs.unique hs'.sought
      have hpermitted := hs'.permitted
      simp [hd] at hpermitted
    · simp [hc, hs.not_baseless]
  | stopped hs => exact .ofStopped hb hs (hs.told hl)
  | spent hs hw => simp [hb] at hw
  | applied hs hw ha hk => exact .ofApplied hs ha hk (by rw [told_conclude hl, hs.told hl]; simp)

/-- The resolution of a blow that carries no final damage yet gives a true account of itself, whatever its
    listeners do short of resolving a blow of their own. -/
theorem resolve_account {l : Listeners α η} (hl : l.Within fun u v => v.told = u.told) {b : Blow α}
    (hb : b.final = none) (w : World α η) :
    Account l b w (answer (resolve l b) w).1 (answer (resolve l b) w).2 (after (resolve l b) w) :=
  (resolve_exit l b w).account hl hb

end World

/-! ### A duel -/

/-- Two players where players may fight; the second of them is nearly beaten. -/
def duel : World Rat (Arena Rat) :=
  .new { pvp := true, fighters := #[⟨"Ann", 20, true, .empty⟩, ⟨"Bob", 5, true, .empty⟩] } .empty

/-- The first of the two, with the main hand. -/
def duelist : Wielder := ⟨Arena.idOf 0, .main⟩

/-- The first of the two strikes the second. -/
def stroke : Blow Rat :=
  { target := Arena.idOf 1, damager := some (.entity (Arena.idOf 0)), cause := .entityAttack, amount := 6, tick := 0 }

theorem World.account_stroke :
    stroke.final = none ∧ Listeners.silent.Within (fun u v : World Rat (Arena Rat) => v.told = u.told) ∧
      Account .silent stroke duel (answer (resolve .silent stroke) duel).1 (answer (resolve .silent stroke) duel).2
        (after (resolve .silent stroke) duel) ∧
      (answer (resolve .silent stroke) duel).1 = .applied 6 true := by
  have hl := Listeners.silent_within (lasting_told (α := Rat) (η := Arena Rat))
  exact ⟨rfl, hl, resolve_account hl rfl duel, by decide +kernel⟩

end Fray
