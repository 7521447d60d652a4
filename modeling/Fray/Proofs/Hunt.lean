import Fray.Proofs.Falls
import Fray.Proofs.Work

/-! The fight of the demonstration as a bout. All that the engine does at its work leaves the fighters in peace; only
    strikes do not, those that spells deal among them. So the fight from beginning to end is one bout, and its falls
    are chronicled. -/

namespace Fray

open Act

namespace Arena

variable {α : Type} [Amount α] {l : Listeners α (Arena α)} {w v u : World α (Arena α)} {ss ss' : List (Strike α)}

theorem Bout.trans (h : Bout l w ss v) (h' : Bout l v ss' u) : Bout l w (ss ++ ss') u := by
  induction h' with
  | start => rwa [List.append_nil]
  | peace _ hp ih => exact .peace ih hp
  | spawn _ f ih => exact .spawn ih f
  | strike s _ ih =>
    rw [← List.append_assoc]
    exact .strike s ih

/-- Some bout leads from one world to the other. -/
def Fought (l : Listeners α (Arena α)) (w v : World α (Arena α)) : Prop := ∃ ss, Bout l w ss v

theorem lasting_fought : Lasting (Fought l) where
  refl _ := ⟨[], .start⟩
  trans := fun ⟨ss, h⟩ ⟨ss', h'⟩ => ⟨ss ++ ss', h.trans h'⟩

theorem Peaceful.fought (h : Peaceful w v) : Fought l w v := ⟨[], .peace .start h⟩

omit [Amount α] in
theorem fallen?_of_isOfWork {n : Note α} (h : n.isOfWork = true) : n.fallen? = none := by
  cases n with
  | falls => exact absurd h Bool.noConfusion
  | _ => rfl

omit [Amount α] in
theorem lenient_peaceful : Lenient (Peaceful (α := α)) where
  toLasting := lasting_peaceful
  aside hhost _ hjournal := ⟨fun e => by rw [hhost], by rw [World.falls, World.falls, hjournal]⟩
  note hn := note_peaceful (fallen?_of_isOfWork hn)
  enter _ _ _ _ := ⟨fun _ => rfl, rfl⟩
  cancel _ _ := ⟨fun _ => rfl, rfl⟩

theorem lenient_fought : Lenient (Fought l) where
  toLasting := lasting_fought
  aside hhost htimetable hjournal := (lenient_peaceful.aside hhost htimetable hjournal).fought
  note hn w := (lenient_peaceful.note hn w).fought
  enter j delay period w := (lenient_peaceful.enter j delay period w).fought
  cancel id w := (lenient_peaceful.cancel id w).fought

theorem note_fought {n : Note α} (hn : n.fallen? = none) : Act.Within (Fought l) (World.note n) :=
  fun w => (note_peaceful hn w).fought

theorem update_fought {f : Arena α → Arena α} (hf : ∀ a e, (f a).fighter? e = a.fighter? e) :
    Act.Within (Fought l) (update f) := fun w => Peaceful.fought ⟨hf w.host, rfl⟩

theorem spawn_fought (f : Fighter α) : Act.Within (Fought l) (spawn f) := fun _ => ⟨_, .spawn .start f⟩

theorem strike_fought (damager : Option Damager) (target : EntityId) (cause : Cause) (amount : α) :
    Act.Within (Fought l) (strike l damager target cause amount) :=
  fun w => ⟨_, .strike ⟨w, damager, target, cause, amount⟩ .start⟩

theorem attack_fought (wielder : Wielder) (target : EntityId) (value : α) (element : Option Element)
    (types : List DamageType) : Act.Within (Fought l) (World.attack wielder target value element types).run :=
  lasting_fought.tryBind (lasting_fought.ofExcept _) fun _ =>
    .tryGetBind fun _ => .ofAct fun w => (register_peaceful _ _ w).fought

/-! ### Spells -/

theorem burn_fought (caster : Wielder) (target : EntityId) (damage : α) (type : DamageType) (cause : Cause) :
    Act.Within (Fought l) (burn l caster target damage type cause).run :=
  lasting_fought.tryBind (attack_fought _ _ _ _ _).tryDiscard fun _ =>
    .tryDiscard (.ofAct (strike_fought _ _ _ _))

theorem setAura_fought (r : ChannelRef) (x : Aura α) : Act.Within (Fought l) (setAura r x) :=
  update_fought fun _ _ => rfl

theorem effects_fought : (effects l).Within (Fought l) where
  shouldEnd _ := .getBind fun _ => lasting_fought.pure _
  pulse _ := .getBind fun _ => lasting_fought.bind (setAura_fought _ _) fun _ =>
    lasting_fought.forM fun target _ => burn_fought _ target _ _ _
  onStart _ := .getBind fun _ => note_fought rfl
  onEnd _ := .getBind fun _ => note_fought rfl

section

variable (hl : l.WithinCasts (Fought l))
include hl

theorem repertoire_fought : (repertoire l).Within (Fought l) := by
  intro ref c r
  refine .tryGetBind fun w => ?_
  cases Spell.ofRef ref with
  | fireBolt =>
    cases r.target with
    | none => exact lasting_fought.tryPure ()
    | some target => exact burn_fought _ target _ _ _
  | burningAura =>
    refine lasting_fought.tryBind (.ofAct fun w => Peaceful.fought ⟨fun _ => rfl, rfl⟩) fun ch => ?_
    refine lasting_fought.tryBind (.ofAct (setAura_fought _ _)) fun _ => ?_
    exact (lenient_fought.startChannel hl effects_fought ch 0 auraPeriod).tryDiscard

theorem cast_fought (caster : EntityId) (slot : Slot) (skill : SkillId) (target : Option EntityId) :
    Act.Within (Fought l) (cast l caster slot skill target).run :=
  lasting_fought.tryBind (lasting_fought.ofExcept _) fun _ =>
    lenient_fought.castNamed hl (repertoire_fought hl) _ skill target

theorem turn_fought : Act.Within (Fought l) (turn l) := by
  refine lasting_fought.bind (lasting_fought.bind (update_fought fun _ _ => rfl) fun _ =>
    .getBind fun _ => lasting_fought.pure _) fun tick => ?_
  refine lasting_fought.bind (lenient_fought.runTick hl (repertoire_fought hl) effects_fought fun w t => ?_) fun _ =>
    lasting_fought.pure _
  exact Peaceful.fought ⟨fun _ => rfl, rfl⟩

end

end Arena

namespace Demo

open Arena

theorem withinCasts_fought : listeners.WithinCasts (Fought listeners) where
  preCast _ _ _ _ := lasting_fought.pure _
  postCast _ _ _ := lasting_fought.pure _
  castStart _ _ _ := lasting_fought.pure _
  castEnd _ _ _ := lasting_fought.pure _

theorem say_fought (line : String) : Act.Within (Fought listeners) (say line) := note_fought rfl

/-! ### Entering and leaving -/

theorem connect_fought (e : EntityId) : Act.Within (Fought listeners) (World.connect e) := by
  intro w
  refine lasting_fought.trans (v := { w with roster := (w.roster.connect e).2 })
    (Peaceful.fought ⟨fun _ => rfl, rfl⟩) ?_
  exact Within.ite (lasting_fought.pure _) (lasting_fought.bind (note_fought rfl) fun _ => lasting_fought.pure _) _

theorem disconnect_fought (e : EntityId) : Act.Within (Fought listeners) (World.disconnect e) := by
  intro w
  refine lasting_fought.trans (v := { w with roster := (w.roster.disconnect e).2 })
    (Peaceful.fought ⟨fun _ => rfl, rfl⟩) ?_
  exact Within.ite (lasting_fought.bind (note_fought rfl) fun _ => lasting_fought.pure _) (lasting_fought.pure _) _

theorem learn_fought (handler : SkillId) (parameters : List (String × Float)) :
    Act.Within (Fought listeners) (World.learn handler parameters).run := by
  refine .tryGetBind fun w => lasting_fought.tryBind (lasting_fought.ofExcept _) fun handler => ?_
  refine lasting_fought.tryBind (lasting_fought.tryFoldlM (fun _ _ _ => lasting_fought.ofExcept _) _) fun skill => ?_
  refine lasting_fought.tryBind (.ofAct fun w => Peaceful.fought ⟨fun _ => rfl, rfl⟩) fun _ => ?_
  exact lasting_fought.tryPure _

theorem enterWolf_fought (i : Nat) : Act.Within (Fought listeners) (enterWolf i) :=
  lasting_fought.bind (spawn_fought _) fun wolf =>
    lasting_fought.bind (connect_fought wolf) fun _ => lasting_fought.pure _

theorem enter_fought (wolves : Nat) : Act.Within (Fought listeners) (enter wolves).run := by
  refine lasting_fought.tryBind (learn_fought _ _).tryDiscard fun _ => ?_
  refine lasting_fought.tryBind (learn_fought _ _).tryDiscard fun _ => ?_
  refine lasting_fought.tryBind (spawn_fought _).ofAct fun knight => ?_
  refine lasting_fought.tryBind (connect_fought knight).ofAct fun state => ?_
  refine lasting_fought.tryBind (lasting_fought.ofExcept _) fun haste => ?_
  refine lasting_fought.tryBind (.ofAct (lenient_fought.updateCombatant state _)) fun _ => ?_
  refine .tryGetBind fun w => lasting_fought.tryBind (say_fought _).ofAct fun _ => ?_
  refine lasting_fought.tryBind (.ofAct (lasting_fought.mapM fun i _ => enterWolf_fought i)) fun wolves => ?_
  exact lasting_fought.tryPure _

theorem leave_fought (p : Party) : Act.Within (Fought listeners) (leave p) := by
  have hleave : Act.Within (Fought listeners) (do
      p.wolves.forM fun wolf => discard (World.disconnect wolf)
      discard (World.disconnect p.knight.entity)) :=
    lasting_fought.bind (lasting_fought.forM fun wolf _ => disconnect_fought wolf) fun _ =>
      disconnect_fought p.knight.entity
  refine .getBind fun w => ?_
  dsimp only
  cases Host.health w.host p.knight.entity with
  | some health => exact lasting_fought.bind (say_fought _) fun _ => hleave
  | none => exact lasting_fought.bind (note_fought rfl) fun _ => hleave

/-! ### Tick by tick -/

theorem tryAura_fought (p : Party) : Act.Within (Fought listeners) (tryAura p).run := by
  refine lasting_fought.tryBind (cast_fought withinCasts_fought _ _ _ _) fun o => ?_
  cases o with
  | delayed task => exact (say_fought _).ofAct
  | cast => exact (say_fought _).ofAct
  | refused | onCooldown | cancelled => exact lasting_fought.tryPure ()

theorem tryBolt_fought (p : Party) (prey : EntityId) : Act.Within (Fought listeners) (tryBolt p prey).run := by
  refine lasting_fought.tryBind (cast_fought withinCasts_fought _ _ _ _) fun o => ?_
  exact .tryIte (.tryGetBind fun _ => (say_fought _).ofAct) (lasting_fought.tryPure ())

theorem editAttack_fought (r : AttackRef) (e : Damage.Edit Float) :
    Act.Within (Fought listeners) (World.editAttack r e).run :=
  .tryGetBind fun _ => lasting_fought.tryBind (lasting_fought.ofExcept _) fun _ =>
    .ofAct fun w => (windows_peaceful w _).fought

theorem swingAt_fought (p : Party) (prey : EntityId) (g : Random) :
    Act.Within (Fought listeners) (swingAt p prey g).run := by
  refine .tryGetBind fun w => lasting_fought.tryBind (attack_fought _ _ _ _ _) fun attack => ?_
  have hstrike : ∀ g : Random, Act.Within (Fought listeners) (do
      discard (Try.ofAct (strike listeners (some (.entity p.knight.entity)) prey .entityAttack 1.0))
      return g : Try Float (Arena Float) Random).run := fun g =>
    lasting_fought.tryBind (strike_fought _ _ _ _).ofAct.tryDiscard fun _ => lasting_fought.tryPure g
  obtain ⟨crit, g⟩ := g.chance 0.2
  cases crit with
  | true =>
    refine lasting_fought.tryBind (editAttack_fought attack _) fun _ => ?_
    exact lasting_fought.tryBind (editAttack_fought attack _) fun _ => hstrike g
  | false => exact hstrike g

theorem bite_fought (p : Party) (g : Random) (wolf : EntityId) : Act.Within (Fought listeners) (bite p g wolf) := by
  refine .getBind fun w => .ite (lasting_fought.pure g) ?_
  obtain ⟨bites, g⟩ := g.chance 0.1
  refine .ite (lasting_fought.pure g) ?_
  exact lasting_fought.bind (strike_fought _ _ _ _) fun _ => lasting_fought.pure _

theorem exchange_fought (p : Party) (prey : EntityId) (tick : Nat) (g : Random) :
    Act.Within (Fought listeners) (exchange p prey tick g).run := by
  have hbites : ∀ g, Act.Within (Fought listeners) (Try.ofAct (p.wolves.foldlM (bite p) g)).run := fun g =>
    .ofAct (lasting_fought.foldlM (fun wolf _ g => bite_fought p g wolf) g)
  have hswing : Act.Within (Fought listeners) (do
      let g ← if tick % 5 = 0 then swingAt p prey g else pure g
      .ofAct (p.wolves.foldlM (bite p) g) : Try Float (Arena Float) Random).run :=
    .tryIte (lasting_fought.tryBind (swingAt_fought p prey g) hbites)
      (lasting_fought.tryBind (lasting_fought.tryPure g) hbites)
  have hbolt : Act.Within (Fought listeners) (do
      if tick % 7 = 0 then tryBolt p prey
      let g ← if tick % 5 = 0 then swingAt p prey g else pure g
      .ofAct (p.wolves.foldlM (bite p) g) : Try Float (Arena Float) Random).run :=
    .tryIte (lasting_fought.tryBind (tryBolt_fought p prey) fun _ => hswing) hswing
  exact .tryIte (lasting_fought.tryBind (tryAura_fought p) fun _ => hbolt) hbolt

/-- However many ticks are left. -/
theorem play_fought (p : Party) (left tick : Nat) (g : Random) :
    Act.Within (Fought listeners) (play p left tick g).run := by
  induction left generalizing tick g with
  | zero => exact lasting_fought.tryPure ()
  | succ left ih =>
    refine lasting_fought.tryBind (turn_fought withinCasts_fought).ofAct.tryDiscard fun _ => ?_
    refine .tryGetBind fun w => .tryIte (lasting_fought.tryPure ()) ?_
    cases w.host.living false with
    | nil => exact lasting_fought.tryPure ()
    | cons prey _ => exact lasting_fought.tryBind (exchange_fought p prey tick g) fun g => ih (tick + 1) g

/-! ### The whole fight -/

theorem subscribe_fought (s : Subscription) : Act.Within (Fought listeners) (World.subscribe s) :=
  fun w => lasting_fought.trans (v := { w with bus := w.bus.register s }) (Peaceful.fought ⟨fun _ => rfl, rfl⟩)
    (note_fought rfl _)

theorem enableIndicators_fought (c : Config) : Act.Within (Fought listeners) (World.enableIndicators c) := by
  have hlast : Act.Within (Fought listeners) (do
      if c.bool World.indicatorsPath true then
        World.subscribe .indicators
        return true
      else
        World.note .indicatorsSwitchedOff
        return false : Act Float (Arena Float) Bool) :=
    .ite (lasting_fought.bind (subscribe_fought _) fun _ => lasting_fought.pure _)
      (lasting_fought.bind (note_fought rfl) fun _ => lasting_fought.pure _)
  unfold World.enableIndicators
  cases c.mistyped? World.indicatorsPath with
  | none => exact hlast
  | some type => exact lasting_fought.bind (note_fought rfl) fun _ => hlast

theorem registerHandler_fought (h : Handler) : Act.Within (Fought listeners) (World.registerHandler h) := by
  intro w
  refine lasting_fought.trans (v := { w with handlers := (w.handlers.register h.info.id.text h).2 })
    (Peaceful.fought ⟨fun _ => rfl, rfl⟩) ?_
  exact Within.ite (note_fought rfl) (lasting_fought.pure _) _

theorem registerHandlers_fought : Act.Within (Fought listeners) registerHandlers :=
  lasting_fought.forM fun s _ => registerHandler_fought s.handler

theorem fight_fought (c : Config) (settings : Settings) (entropy : UInt64) :
    Act.Within (Fought listeners) (fight c settings entropy).run := by
  refine lasting_fought.tryBind (enableIndicators_fought c).ofAct.tryDiscard fun _ => ?_
  refine lasting_fought.tryBind (subscribe_fought herald).ofAct fun _ => ?_
  refine lasting_fought.tryBind registerHandlers_fought.ofAct fun _ => ?_
  refine lasting_fought.tryBind (enter_fought settings.arena.wolves.toNat) fun p => ?_
  exact lasting_fought.tryBind (play_fought p _ _ _) fun _ => (leave_fought p).ofAct

/-- The falls of the demonstration, whatever its configuration and its settings are, are those of its strikes. -/
theorem fight_chronicled (c : Config) (settings : Settings) (entropy : UInt64) :
    ∃ ss, Bout listeners (.new {} c) ss (after (fight c settings entropy).run (.new {} c)) ∧
      Chronicle listeners (.new {} c) ss (after (fight c settings entropy).run (.new {} c)) := by
  obtain ⟨ss, h⟩ := fight_fought c settings entropy (.new {} c)
  exact ⟨ss, h, h.chronicle Amount.wounding_float listeners_peaceful⟩

end Demo
end Fray
