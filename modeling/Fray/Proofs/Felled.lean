import Mathlib.Tactic.Linarith
import Fray.Proofs.Conservation
import Fray.Proofs.Exact

/-! Who dies in an arena. The engine tells of a kill when the damage reaches the health that it read before its
    listeners ran, and the arena takes the damage from the health afterwards; as long as no listener strikes, both
    come to the same. And whoever is dead stays dead, and is never told of as killed again. -/

namespace Fray

open Act

/-- Who killed, and who was killed. -/
def Event.killed? {α : Type} : Event α → Option (EntityId × EntityId)
  | .kill attacker target _ => some (attacker, target)
  | .attack _ | .finalized _ _ | .preCast _ _ | .postCast _ _ | .castStart _ _ _ | .castEnd _ _ _ => none

/-- The kills that listeners were told of, oldest first. -/
def World.kills {α η : Type} (w : World α η) : List (EntityId × EntityId) := w.told.filterMap Event.killed?

theorem World.kills_of_event {α η : Type} {w v : World α η} {e : Event α} (h : v.told = w.told ++ [e]) :
    v.kills = w.kills ++ e.killed?.toList := by
  rw [kills, h, List.filterMap_append]
  cases hk : e.killed? <;> simp [kills, hk]

theorem World.kills_announced {α η : Type} {e : Event α} (he : e.isOfBlow = true) (w : World α η) :
    (w.announced e).kills = w.kills ++ e.killed?.toList := kills_of_event (told_announced he w)

namespace Arena

theorem idOf_of_place? {e : EntityId} {i : Nat} (h : place? e = some i) : e = idOf i := by
  obtain ⟨n⟩ := e
  simp only [place?, Option.ite_none_right_eq_some, Option.some.injEq] at h
  simp only [idOf, EntityId.mk.injEq]
  omega

theorem health_eq_some {a : Arena Rat} {e : EntityId} {h : Rat} :
    Host.health a e = some h ↔ ∃ f, a.fighter? e = some f ∧ 0 < f.health ∧ f.health = h := by
  simp [Host.health, Fighter.isAlive, Option.filter_eq_some_iff, and_assoc]

theorem alive_eq_true {a : Arena Rat} {e : EntityId} :
    Host.alive a e = true ↔ ∃ f, a.fighter? e = some f ∧ 0 < f.health := by
  simp [Host.alive, Fighter.isAlive, Option.any_eq_true]

/-- Someone is said to have killed a living fighter exactly if the attack has an attacker and deals what was left. -/
theorem isSome_killer {a : Attack Rat} {w : Arena Rat} {e : EntityId} :
    (a.killer (Host.health w e)).isSome ↔ (∃ wielder, a.attacker = some wielder) ∧
      ∃ f, w.fighter? e = some f ∧ 0 < f.health ∧ f.health ≤ a.damage.dealt := by
  rw [Option.isSome_iff_exists]
  constructor
  · rintro ⟨e', hk⟩
    obtain ⟨wielder, health, hattacker, hhealth, hle, -⟩ := Attack.killer_eq_some.mp hk
    obtain ⟨f, hf, halive, rfl⟩ := health_eq_some.mp hhealth
    exact ⟨⟨wielder, hattacker⟩, f, hf, halive, hle⟩
  · rintro ⟨⟨wielder, hattacker⟩, f, hf, halive, hle⟩
    have hhealth := health_eq_some.mpr ⟨f, hf, halive, rfl⟩
    exact ⟨wielder.entity, Attack.killer_eq_some.mpr ⟨wielder, f.health, hattacker, hhealth, hle, rfl⟩⟩

section

variable {α : Type} [Amount α]

/-- What is taken from a fighter is taken from nobody else; and what is no fighter has nothing to take. -/
theorem after_hurt (w : World α (Arena α)) (e : EntityId) (d : α) :
    w.host.fighter? e = none ∧ after (hurt e d) w = w ∨
      ∃ i f, place? e = some i ∧ w.host.fighters[i]? = some f ∧ after (hurt e d) w =
        { w with
          host := { w.host with
            fighters := w.host.fighters.modify i fun f' => { f' with health := Amount.larger (f.health - d) 0 } }
          journal :=
            if Amount.IsZero (Amount.larger (f.health - d) 0) then w.journal.push (.falls f.name) else w.journal } := by
  cases hp : place? e with
  | none => exact Or.inl ⟨by simp [fighter?, hp], by simp [hurt, hp]⟩
  | some i =>
    cases hf : w.host.fighters[i]? with
    | none => exact Or.inl ⟨by simp [fighter?, hp, hf], by simp [hurt, hp, hf]⟩
    | some f =>
      refine Or.inr ⟨i, f, rfl, hf, ?_⟩
      by_cases hz : Amount.IsZero (Amount.larger (f.health - d) 0)
      · simp [hurt, hp, hf, update, hz, World.after_note]
      · simp [hurt, hp, hf, update, hz]

theorem fighter?_hurt (w : World α (Arena α)) (e e' : EntityId) (d : α) :
    (after (hurt e d) w).host.fighter? e' =
      if e' = e then (w.host.fighter? e).map fun f => { f with health := Amount.larger (f.health - d) 0 }
      else w.host.fighter? e' := by
  rcases after_hurt w e d with ⟨hf, hafter⟩ | ⟨i, f, hp, hf, hafter⟩
  · rw [hafter]
    split
    · next h => rw [h, hf, Option.map_none]
    · rfl
  · rw [hafter]
    by_cases h : e' = e
    · simp [h, fighter?, hp, hf, Array.getElem?_modify]
    · rw [if_neg h]
      cases hp' : place? e' with
      | none => simp [fighter?, hp']
      | some i' =>
        have hne : i ≠ i' := by
          rintro rfl
          exact h ((idOf_of_place? hp').trans (idOf_of_place? hp).symm)
        simp [fighter?, hp', Array.getElem?_modify, hne]

theorem told_hurt (w : World α (Arena α)) (e : EntityId) (d : α) : (after (hurt e d) w).told = w.told := by
  rcases after_hurt w e d with ⟨-, hafter⟩ | ⟨i, f, -, -, hafter⟩
  · rw [hafter]
  · rw [hafter]
    rfl

variable {l : Listeners α (Arena α)} {w : World α (Arena α)} {damager : Option Damager} {target : EntityId}
  {cause : Cause} {amount : α}

theorem answer_strike : answer (strike l damager target cause amount) w =
    (answer (World.resolve l { target, damager, cause, amount, tick := w.host.tick }) w).1 := by
  simp only [strike, answer_get_bind]
  rw [answer_bind]
  split <;> rfl

theorem after_strike : after (strike l damager target cause amount) w =
    after ((answer (World.resolve l { target, damager, cause, amount, tick := w.host.tick }) w).2.final.elim (pure ())
      (hurt target)) (after (World.resolve l { target, damager, cause, amount, tick := w.host.tick }) w) := by
  simp only [strike, after_get_bind]
  rw [after_bind]
  generalize answer (World.resolve l _) w = x
  cases h : x.2.final with
  | none => rfl
  | some d => rfl

end

/-! ### Sparing the fighters -/

/-- A fighter without health left. -/
def IsDead (a : Arena Rat) (e : EntityId) : Prop := ∃ f, a.fighter? e = some f ∧ f.health ≤ 0

/-- Every fighter is there still, as it was; and no dead one is told of as killed. -/
structure Spares (w v : World Rat (Arena Rat)) : Prop where
  fighters : ∀ e f, w.host.fighter? e = some f → v.host.fighter? e = some f
  kills : ∃ ks, v.kills = w.kills ++ ks ∧ ∀ k ∈ ks, ¬ IsDead w.host k.2

/-- The dead stay dead, and none of them is told of as killed. -/
structure Buries (w v : World Rat (Arena Rat)) : Prop where
  dead : ∀ e, IsDead w.host e → IsDead v.host e
  kills : ∃ ks, v.kills = w.kills ++ ks ∧ ∀ k ∈ ks, ¬ IsDead w.host k.2

theorem Spares.buries {w v : World Rat (Arena Rat)} (h : Spares w v) : Buries w v where
  dead := by
    rintro e ⟨f, hf, hdead⟩
    exact ⟨f, h.fighters e f hf, hdead⟩
  kills := h.kills

theorem Spares.ofTold {w v : World Rat (Arena Rat)}
    (hf : ∀ e f, w.host.fighter? e = some f → v.host.fighter? e = some f) (ht : v.told = w.told) : Spares w v :=
  ⟨hf, [], by simp [World.kills, ht], by simp⟩

theorem Spares.ofEvent {w v : World Rat (Arena Rat)} (hh : v.host = w.host) {e : Event Rat}
    (ht : v.told = w.told ++ [e])
    (he : ∀ k, e.killed? = some k → ¬ IsDead w.host k.2) : Spares w v := by
  refine ⟨fun e' f hf => hh ▸ hf, e.killed?.toList, World.kills_of_event ht, ?_⟩
  intro k hk
  exact he k (by simpa using hk)

theorem lasting_buries : Lasting Buries where
  refl w := ⟨fun _ h => h, [], by simp, by simp⟩
  trans h h' := by
    obtain ⟨ks, hks, halive⟩ := h.kills
    obtain ⟨ks', hks', halive'⟩ := h'.kills
    refine ⟨fun e he => h'.dead e (h.dead e he), ks ++ ks', by rw [hks', hks, List.append_assoc], ?_⟩
    intro k hk hdead
    rcases List.mem_append.mp hk with hk | hk
    · exact halive k hk hdead
    · exact halive' k hk (h.dead _ hdead)

theorem lasting_spares : Lasting Spares where
  refl _ := .ofTold (fun _ _ h => h) rfl
  trans h h' :=
    { fighters := fun e f hf => h'.fighters e f (h.fighters e f hf)
      kills := (lasting_buries.trans h.buries h'.buries).kills }

variable {l : Listeners Rat (Arena Rat)} (hl : l.Within Spares)
include hl

/-- The last telling spares the fighters if whoever killed has killed someone alive. -/
theorem conclude_spares {b : Blow Rat} {a : Attack Rat} {killer : Option EntityId} {w : World Rat (Arena Rat)}
    (hk : ∀ e, killer = some e → ¬ IsDead w.host b.target) :
    Spares w (after (World.conclude l b a killer) w) := by
  have hfinal : ∀ w, Spares w (after (l.tellFinalized a a.damage.dealt) w) := by
    intro w
    have hannounced : Spares w (w.announced (.finalized a a.damage.dealt)) :=
      .ofEvent rfl (World.told_announced rfl w) (by simp [Event.killed?])
    exact lasting_spares.trans hannounced (l.tellFinalized_within lasting_spares hl a _ w)
  cases killer with
  | none => exact hfinal w
  | some e =>
    have hannounced : Spares w (w.announced (.kill e b.target a)) :=
      .ofEvent rfl (World.told_announced rfl w) (by
        intro k hkilled
        cases hkilled
        exact hk e rfl)
    have hkill : Spares w (after (l.tellKill e b.target a) w) :=
      lasting_spares.trans hannounced (l.tellKill_within lasting_spares hl e b.target a w)
    exact lasting_spares.trans hkill (hfinal _)

theorem shown_spares {b : Blow Rat} {w v u : World Rat (Arena Rat)} {r : AttackRef} {cancelled : Bool}
    (h : World.Shown l b w r v cancelled u) : Spares w u := by
  obtain ⟨hhost, -, -, hhistory⟩ := h.sought.located.frame
  have hv : Spares w v := .ofTold (fun e f hf => hhost ▸ hf) (by simp [World.told, hhistory])
  have hannounced : Spares v (v.announced (.attack r)) :=
    .ofEvent rfl (World.told_announced rfl v) (by simp [Event.killed?])
  have hasked : Spares v (after (l.askAttack r) v) :=
    lasting_spares.trans hannounced (l.askAttack_within lasting_spares hl r v)
  have hclosed : Spares (after (l.askAttack r) v) u := by
    rw [h.closed]
    exact .ofTold (fun _ _ h => h) rfl
  exact lasting_spares.trans hv (lasting_spares.trans hasked hclosed)

theorem exit_spares {b b' : Blow Rat} {w w' : World Rat (Arena Rat)} {o : Outcome Rat}
    (h : World.Exit l b w o b' w') : Spares w w' := by
  cases h with
  | ignored hz => exact lasting_spares.refl w
  | withdrawn hz hc => exact .ofTold (fun _ _ h => h) rfl
  | baseless hz hc hb => exact .ofTold (fun _ _ h => h) rfl
  | denied hz hc hs hd =>
    obtain ⟨hhost, -, -, hhistory⟩ := hs.located.frame
    exact .ofTold (fun e f hf => hhost ▸ hf) (by simp [World.told, hhistory])
  | stopped hs => exact shown_spares hl hs
  | spent hs hw => exact lasting_spares.trans (shown_spares hl hs) (.ofTold (fun _ _ h => h) rfl)
  | @applied r v u a killer hs hw ha hk =>
    have hu := shown_spares hl hs
    refine lasting_spares.trans hu (conclude_spares hl ?_)
    rintro e he ⟨f, hf, hdead⟩
    -- The health was read before the listeners ran; they have spared the fighter since.
    obtain ⟨wielder, health, -, hhealth, -, -⟩ := Attack.killer_eq_some.mp (hk.trans he)
    obtain ⟨f', hf', halive, -⟩ := health_eq_some.mp hhealth
    have hsame := hu.fighters _ f' hf'
    rw [hf] at hsame
    cases hsame
    exact absurd hdead (not_le.mpr halive)

/-- To resolve a blow is no strike: the fighters are spared, whatever listeners do short of striking. -/
theorem resolve_spares (b : Blow Rat) : Act.Within Spares (World.resolve l b) :=
  fun w => exit_spares hl (World.resolve_exit l b w)

omit hl

theorem lasting_host : Lasting fun u v : World Rat (Arena Rat) => v.host = u.host :=
  ⟨fun _ => rfl, fun h h' => h'.trans h⟩

theorem host_resolve (hl : l.Within fun u v => v.host = u.host) (b : Blow Rat) (w : World Rat (Arena Rat)) :
    (after (World.resolve l b) w).host = w.host :=
  World.resolve_within lasting_host (fun _ _ _ => rfl) (fun _ _ _ => rfl) hl b w

/-! ### Strikes -/

theorem left_of_dealt {h d : Rat} (hd : 1 / 100 ≤ d) :
    min h Amount.leastDamage ≤ h - max (h - d) 0 ∧ (max (h - d) 0 ≤ 0 ↔ h ≤ d) := by
  rw [Amount.leastDamage_eq]
  rcases le_total h d with hle | hle
  · rw [max_eq_right (by linarith)]
    refine ⟨?_, by simp [hle]⟩
    rw [sub_zero]
    exact min_le_left _ _
  · rw [max_eq_left (by linarith)]
    refine ⟨?_, by constructor <;> intro <;> linarith⟩
    have hmin := min_le_right h (1 / 100)
    linarith

theorem lasting_kills : Lasting fun u v : World Rat (Arena Rat) => v.kills = u.kills :=
  ⟨fun _ => rfl, fun h h' => h'.trans h⟩

section

variable (hk : l.Within fun u v => v.kills = u.kills)
include hk

/-- Where listeners kill nobody, what a blow tells of before it is finalized is no kill. -/
theorem kills_shown {r : AttackRef} {v u : World Rat (Arena Rat)} {b : Blow Rat} {w : World Rat (Arena Rat)}
    {cancelled : Bool} (h : World.Shown l b w r v cancelled u) : u.kills = w.kills := by
  have hv : v.kills = w.kills := by simp [World.kills, World.told, h.sought.located.frame.2.2.2]
  have hannounced : (v.announced (.attack r)).kills = v.kills :=
    (World.kills_announced rfl v).trans (List.append_nil _)
  have hasked : (after (l.askAttack r) v).kills = v.kills :=
    (l.askAttack_within lasting_kills hk r v).trans hannounced
  rw [h.closed]
  exact hasked.trans hv

theorem kills_conclude (b : Blow Rat) (a : Attack Rat) (killer : Option EntityId) (w : World Rat (Arena Rat)) :
    (after (World.conclude l b a killer) w).kills = w.kills ++ killer.toList.map fun e => (e, b.target) := by
  have hfinal : ∀ w, (after (l.tellFinalized a a.damage.dealt) w).kills = w.kills := by
    intro w
    have hannounced : (w.announced (.finalized a a.damage.dealt)).kills = w.kills :=
      (World.kills_announced rfl w).trans (List.append_nil _)
    exact (l.tellFinalized_within lasting_kills hk a _ w).trans hannounced
  cases killer with
  | none => simpa [World.conclude] using hfinal w
  | some e =>
    have hkill : (after (l.tellKill e b.target a) w).kills = w.kills ++ [(e, b.target)] :=
      (l.tellKill_within lasting_kills hk e b.target a w).trans (World.kills_announced rfl w)
    simpa [World.conclude, hfinal] using hkill

end

/-- What a strike does, in which the engine resolves `b` to the outcome `o`. -/
structure Struck (l : Listeners Rat (Arena Rat)) (b : Blow Rat) (w : World Rat (Arena Rat)) (o : Outcome Rat)
    (w' : World Rat (Arena Rat)) : Prop where
  others : ∀ e f, e ≠ b.target → w.host.fighter? e = some f → w'.host.fighter? e = some f
  /-- But for what its listeners do, a blow that is not applied changes nothing. -/
  withheld : (∀ d killed, o ≠ .applied d killed) → w' = after (World.resolve l b) w ∧
    (∀ e f, w.host.fighter? e = some f → w'.host.fighter? e = some f) ∧
    (l.Within (fun u v => v.host = u.host) → w'.host = w.host)
  applied : ∀ d killed f, o = .applied d killed → w.host.fighter? b.target = some f → 0 < f.health →
    ∃ f', w'.host.fighter? b.target = some f' ∧ f'.health = max (f.health - d) 0 ∧
      min f.health Amount.leastDamage ≤ f.health - f'.health ∧ (Host.alive w'.host b.target = false ↔ f.health ≤ d)
  killed : ∀ d killed, o = .applied d killed → ∃ r a, World.FinalizedAs l b w r a ∧ a.damage.dealt = d ∧
    (killed = true ↔ (∃ wielder, a.attacker = some wielder) ∧ Host.alive w.host b.target = true ∧
      Host.alive w'.host b.target = false)
  /-- Where listeners kill nobody of their own, one kill is told of if the target was killed, and none otherwise. -/
  told : l.Within (fun u v => v.kills = u.kills) →
    (∃ d attacker, o = .applied d true ∧ w'.kills = w.kills ++ [(attacker, b.target)]) ∨
      (∀ d, o ≠ .applied d true) ∧ w'.kills = w.kills
  buries : Buries w w'

namespace Struck

variable {b b' : Blow Rat} {w w' : World Rat (Arena Rat)} {o : Outcome Rat}

theorem ofWithheld (hl : l.Within Spares) (ho : ∀ d killed, o ≠ .applied d killed)
    (ht : l.Within (fun u v => v.kills = u.kills) → (after (World.resolve l b) w).kills = w.kills) :
    Struck l b w o (after (World.resolve l b) w) where
  others e f _ hf := (resolve_spares hl b w).fighters e f hf
  withheld _ := ⟨rfl, (resolve_spares hl b w).fighters, fun hhost => host_resolve hhost b w⟩
  applied d killed _ h := absurd h (ho d killed)
  killed d killed h := absurd h (ho d killed)
  told h := Or.inr ⟨fun d => ho d true, ht h⟩
  buries := (resolve_spares hl b w).buries

theorem ofApplied (hl : l.Within Spares) {r : AttackRef} {v u : World Rat (Arena Rat)} {a : Attack Rat}
    {killer : Option EntityId} (h : World.Shown l b w r v false u) (ha : u.windows.attack r = a)
    (hk : a.killer (Host.health w.host b.target) = killer)
    (hw : after (World.resolve l b) w = after (World.conclude l b a killer) u) :
    Struck l b w (.applied a.damage.dealt killer.isSome)
      (after (hurt b.target a.damage.dealt) (after (World.resolve l b) w)) := by
  have hspares := resolve_spares hl b w
  generalize hv' : after (World.resolve l b) w = v' at hspares hw
  have htarget : ∀ f, w.host.fighter? b.target = some f →
      (after (hurt b.target a.damage.dealt) v').host.fighter? b.target =
        some { f with health := max (f.health - a.damage.dealt) 0 } := by
    intro f hf
    simp [fighter?_hurt, hspares.fighters _ f hf, Amount.larger_eq_max]
  have hdead : ∀ f, w.host.fighter? b.target = some f →
      (Host.alive (after (hurt b.target a.damage.dealt) v').host b.target = false ↔ f.health ≤ a.damage.dealt) := by
    intro f hf
    rw [← Bool.not_eq_true, alive_eq_true, ← (left_of_dealt a.damage.leastDamage_le_dealt).2]
    simp [htarget f hf]
  have hkills : (after (hurt b.target a.damage.dealt) v').kills = v'.kills := by simp [World.kills, told_hurt]
  exact
    { others := fun e f he hf => by simp [fighter?_hurt, he, hspares.fighters e f hf]
      withheld := fun ho => absurd rfl (ho _ _)
      applied := by
        rintro d killed f ⟨⟩ hf -
        exact ⟨_, htarget f hf, rfl, (left_of_dealt a.damage.leastDamage_le_dealt).1, hdead f hf⟩
      killed := by
        rintro d killed ⟨⟩
        refine ⟨r, a, ⟨v, u, h, ha⟩, rfl, ?_⟩
        rw [← hk, isSome_killer, alive_eq_true]
        constructor
        · rintro ⟨hattacker, f, hf, halive, hle⟩
          exact ⟨hattacker, ⟨f, hf, halive⟩, (hdead f hf).mpr hle⟩
        · rintro ⟨hattacker, ⟨f, hf, halive⟩, hfelled⟩
          exact ⟨hattacker, f, hf, halive, (hdead f hf).mp hfelled⟩
      told := by
        intro hkilled
        have hall : v'.kills = w.kills ++ killer.toList.map fun e => (e, b.target) := by
          rw [hw, kills_conclude hkilled, kills_shown hkilled h]
        cases killer with
        | none => exact Or.inr ⟨by simp, by simpa [hkills] using hall⟩
        | some e => exact Or.inl ⟨_, e, rfl, by simpa [hkills] using hall⟩
      buries :=
        { dead := by
            rintro e ⟨f, hf, hdead⟩
            by_cases he : e = b.target
            · subst he
              have hd := a.damage.leastDamage_le_dealt
              exact ⟨_, htarget f hf, max_le (by linarith) (le_refl 0)⟩
            · exact ⟨f, by simp [fighter?_hurt, he, hspares.fighters e f hf], hdead⟩
          kills := by
            rw [hkills]
            exact hspares.kills } }

end Struck

/-- The blow that a strike hands to the engine. -/
def blowOf (w : World Rat (Arena Rat)) (damager : Option Damager) (target : EntityId) (cause : Cause) (amount : Rat) :
    Blow Rat :=
  { target, damager, cause, amount, tick := w.host.tick }

variable {w v : World Rat (Arena Rat)} {damager : Option Damager} {target : EntityId} {cause : Cause} {amount : Rat}

theorem strike_struck (hl : l.Within Spares) (w : World Rat (Arena Rat)) (damager : Option Damager)
    (target : EntityId) (cause : Cause) (amount : Rat) :
    Struck l (blowOf w damager target cause amount) w (answer (strike l damager target cause amount) w)
      (after (strike l damager target cause amount) w) := by
  rw [answer_strike, after_strike]
  rw [show ({ target, damager, cause, amount, tick := w.host.tick } : Blow Rat) =
    blowOf w damager target cause amount from rfl]
  have hb : (blowOf w damager target cause amount).final = none := rfl
  have ht : (blowOf w damager target cause amount).target = target := rfl
  generalize blowOf w damager target cause amount = b at hb ht
  subst ht
  have hexit := World.resolve_exit l b w
  generalize (answer (World.resolve l b) w).1 = o at hexit
  generalize (answer (World.resolve l b) w).2 = b' at hexit
  obtain ⟨w', hw'⟩ : ∃ w', after (World.resolve l b) w = w' := ⟨_, rfl⟩
  rw [hw'] at hexit
  have hsilent : (∀ d killed, o ≠ .applied d killed) → b'.final = none → (l.Within (fun u v => v.kills = u.kills) →
      w'.kills = w.kills) → Struck l b w o
        (after (b'.final.elim (pure ()) (hurt b.target)) (after (World.resolve l b) w)) := by
    intro ho hfinal hkills
    rw [hfinal]
    exact .ofWithheld hl ho (hw' ▸ hkills)
  cases hexit with
  | ignored hz => exact hsilent (by simp) hb fun _ => rfl
  | withdrawn hz hc => exact hsilent (by simp) hb fun _ => rfl
  | baseless hz hc hbase => exact hsilent (by simp) hb fun _ => rfl
  | denied hz hc hs hd =>
    exact hsilent (by simp) hb fun _ => by simp [World.kills, World.told, hs.located.frame.2.2.2]
  | stopped hs =>
    exact hsilent (by simp) hb fun hkills => kills_shown hkills hs
  | spent hs hw => simp [hb] at hw
  | applied hs hw ha hk => exact .ofApplied hl hs ha hk hw'

/-! ### Fights -/

theorem spawn_spares (f : Fighter Rat) : Act.Within Spares (spawn f) := by
  intro w
  refine .ofTold (fun e f' hf => ?_) rfl
  obtain ⟨i, hi, hf⟩ := Option.bind_eq_some_iff.mp hf
  obtain ⟨hlt, -⟩ := Array.getElem?_eq_some_iff.mp hf
  show (place? e).bind (fun i => (w.host.fighters.push f)[i]?) = some f'
  rw [hi, Option.bind_some, Array.getElem?_push, if_neg (Nat.ne_of_lt hlt), hf]

theorem advance_spares : Act.Within Spares (advance (α := Rat)) := fun _ => .ofTold (fun _ _ h => h) rfl

/-- What happens in an arena: fighters enter, time goes on, and they strike; the engine may do what spares them. -/
inductive Step (l : Listeners Rat (Arena Rat)) : World Rat (Arena Rat) → World Rat (Arena Rat) → Prop
  | spawn (w : World Rat (Arena Rat)) (f : Fighter Rat) : Step l w (after (spawn f) w)
  | advance (w : World Rat (Arena Rat)) : Step l w (after advance w)
  | strike (w : World Rat (Arena Rat)) (damager : Option Damager) (target : EntityId) (cause : Cause) (amount : Rat) :
    Step l w (after (strike l damager target cause amount) w)
  | engine {w v : World Rat (Arena Rat)} (h : Spares w v) : Step l w v

/-- All along a fight the engine and the arena agree on who dies, and the dead stay dead. -/
theorem agree_on_the_dead (hl : l.Within Spares) (h : Relation.ReflTransGen (Step l) w v) :
    Buries w v ∧ ∀ damager target cause amount, Struck l (blowOf v damager target cause amount) v
      (answer (strike l damager target cause amount) v) (after (strike l damager target cause amount) v) := by
  refine ⟨?_, strike_struck hl v⟩
  induction h with
  | refl => exact lasting_buries.refl w
  | tail _ hstep ih =>
    refine lasting_buries.trans ih ?_
    cases hstep with
    | spawn f => exact (spawn_spares f _).buries
    | advance => exact (advance_spares _).buries
    | strike damager target cause amount => exact (strike_struck hl _ damager target cause amount).buries
    | engine h => exact h.buries

/-! ### A duel that others join -/

/-- A listener that sends another fighter in for whoever was killed. -/
def avenged : Listeners Rat (Arena Rat) :=
  { Listeners.silent with kill := fun _ _ _ _ => discard (spawn ⟨"Cid", 8, true, .empty⟩) }

/-- The duel once the first of the two has struck the second. -/
def decided : World Rat (Arena Rat) :=
  after (strike avenged stroke.damager stroke.target stroke.cause stroke.amount) World.seconded

theorem agree_on_the_duel :
    avenged.Within Spares ∧ Relation.ReflTransGen (Step avenged) World.seconded decided ∧
      Host.alive World.seconded.host stroke.target = true ∧ Host.alive decided.host stroke.target = false ∧
      decided.host.fighters.size = 3 ∧ Buries World.seconded decided ∧ ∀ damager target cause amount,
        Struck avenged (blowOf decided damager target cause amount) decided
          (answer (strike avenged damager target cause amount) decided)
          (after (strike avenged damager target cause amount) decided) := by
  have hl : avenged.Within Spares :=
    { Listeners.silent_within lasting_spares with kill := fun _ _ _ _ w => spawn_spares ⟨"Cid", 8, true, .empty⟩ w }
  have hfight : Relation.ReflTransGen (Step avenged) World.seconded decided :=
    .single (.strike World.seconded stroke.damager stroke.target stroke.cause stroke.amount)
  exact ⟨hl, hfight, by decide +kernel, by decide +kernel, by decide +kernel, agree_on_the_dead hl hfight⟩

end Arena
end Fray
