import Fray.Engine.Cast
import Fray.Proofs.Channelling
import Fray.Proofs.Listening

/-! What the engine does while it casts, channels and keeps time: little by itself, and for the rest it calls others. So
    whatever these stay within when they are called, the engine stays within at its work. -/

namespace Fray

open Act

variable {α η : Type}

/-- What is noted while casts and channelled effects are at work. -/
def Note.isOfWork : Note α → Bool
  | .castDelayed _ _ _ | .delayedCastFailed _ _ | .channelStarted _ _ | .channelEnded _ _ => true
  | _ => false

/-- A relation that allows what the engine does by itself at its work. -/
structure Lenient (R : World α η → World α η → Prop) : Prop extends Lasting R where
  /-- States, effects and events are the engine's own. -/
  aside : ∀ {w v : World α η}, v.host = w.host → v.timetable = w.timetable → v.journal = w.journal → R w v
  note : ∀ {n : Note α}, n.isOfWork = true → Act.Within R (World.note n)
  enter : ∀ j delay period, Act.Within R (Scheduling.enter j delay period)
  cancel : ∀ id, Act.Within R (Scheduling.ticked.cancel id)

/-- Whatever listeners do when they are told of casts, it stays within the relation. -/
structure Listeners.WithinCasts (R : World α η → World α η → Prop) (l : Listeners α η) : Prop where
  preCast : ∀ id c r cancelled, Act.Within R (l.preCast id c r cancelled)
  postCast : ∀ id c r, Act.Within R (l.postCast id c r)
  castStart : ∀ id caster skill, Act.Within R (l.castStart id caster skill)
  castEnd : ∀ id caster skill, Act.Within R (l.castEnd id caster skill)

/-- Whatever effects do, it stays within the relation. -/
structure Effects.Within (R : World α η → World α η → Prop) (e : Effects α η) : Prop where
  shouldEnd : ∀ r, Act.Within R (e.shouldEnd r)
  pulse : ∀ r, Act.Within R (e.pulse r)
  onStart : ∀ r, Act.Within R (e.onStart r)
  onEnd : ∀ r, Act.Within R (e.onEnd r)

/-- Whatever handlers do, it stays within the relation. -/
def Repertoire.Within (R : World α η → World α η → Prop) (h : Repertoire α η) : Prop :=
  ∀ ref c r, Act.Within R (h.perform ref c r).run

namespace Lenient

variable {R : World α η → World α η → Prop} (hR : Lenient R)
include hR

theorem updateCombatant (s : StateRef) (f : Combatant α → Combatant α) :
    Act.Within R (World.updateCombatant (η := η) s f) := fun _ => hR.aside rfl rfl rfl

theorem setPhase (r : ChannelRef) (p : Phase) : Act.Within R (World.setPhase r p) := fun _ => hR.aside rfl rfl rfl

theorem tell (e : Event α) {call : ListenerId → Act α η Unit} (hcall : ∀ id, Act.Within R (call id)) :
    Act.Within R (Listeners.tell e call) := fun w =>
  hR.trans (hR.aside (v := w.announced e) rfl rfl rfl) (Listeners.tell_within hR.toLasting hcall w)

variable {l : Listeners α η} {e : Effects α η} {h : Repertoire α η} (hl : l.WithinCasts R)
include hl

theorem askPreCast (c : Casting α) (r : Reply) : Act.Within R (l.askPreCast c r) := fun w =>
  hR.trans (hR.aside (v := w.announced (.preCast c r)) rfl rfl rfl)
    (Listeners.ask_within hR.toLasting (fun id cancelled => hl.preCast id c r cancelled) w)

/-! ### Channelled effects -/

section

variable (he : e.Within R)
include he

theorem ending (r : ChannelRef) (c : Casting α) (task : Option TaskId) :
    Act.Within R (World.ending l e r c task) := by
  refine hR.bind (he.onEnd r) fun _ => ?_
  refine hR.bind (hR.updateCombatant _ _) fun _ => ?_
  exact hR.bind (hR.tell _ fun id => hl.castEnd id _ _) fun _ => hR.note rfl

theorem finish (r : ChannelRef) (c : Casting α) (task : Option TaskId) :
    Act.Within R (World.stopChannel.finish l e .ticked r c task) := by
  refine .getBind fun w => .ite ?_ (hR.updateCombatant _ _)
  cases task with
  | none => exact hR.ending hl he r c none
  | some id => exact hR.bind (hR.cancel id) fun _ => hR.ending hl he r c (some id)

theorem stopChannel (r : ChannelRef) : Act.Within R (World.stopChannel l e .ticked r).run := by
  refine .tryGetBind fun w => ?_
  dsimp only
  cases w.phase r with
  | idle => exact hR.pure _
  | ended task => exact hR.tryPure ()
  | starting => exact .ofAct (hR.bind (hR.setPhase r _) fun _ => hR.finish hl he r _ none)
  | running id => exact .ofAct (hR.bind (hR.setPhase r _) fun _ => hR.finish hl he r _ (some id))

theorem turnChannel (r : ChannelRef) : Act.Within R (World.turnChannel l e .ticked r) := by
  refine .getBind fun w => .ite (hR.bind (he.shouldEnd r) fun ends => ?_) (hR.pure ())
  exact .ite (hR.stopChannel hl he r) (he.pulse r)

theorem startChannel (r : ChannelRef) (delay period : Nat) :
    Act.Within R (World.startChannel l e .ticked r delay period).run := by
  refine .tryGetBind fun begun => .tryIte ?_ (hR.pure _)
  cases begun.phase r with
  | running id => exact hR.pure _
  | starting => exact hR.pure _
  | ended task => cases task <;> exact hR.pure _
  | idle =>
    refine .ofAct (hR.bind (hR.setPhase r _) fun _ => hR.bind (hR.updateCombatant _ _) fun _ => ?_)
    refine hR.bind (he.onStart r) fun _ => hR.bind (hR.tell _ fun id => hl.castStart id _ _) fun _ => ?_
    refine hR.bind (hR.enter _ _ _) fun id => .getBind fun w => ?_
    have hnoted : Act.Within R (do World.note (.channelStarted (begun.channel r).casting.skill.id id); return id) :=
      hR.bind (hR.note rfl) fun _ => hR.pure id
    refine .ite (hR.bind (hR.setPhase r _) fun _ => hnoted) (hR.bind (hR.setPhase r _) fun _ => ?_)
    exact hR.bind (hR.cancel id) fun _ => hnoted

end

/-! ### Casts -/

variable [Amount α] [Host η α] (hh : h.Within R)
include hh

theorem castInstantly (c : Casting α) (r : Reply) : Act.Within R (World.castInstantly l h c r).run := by
  refine .tryGetBind fun w => hR.tryBind (.ofAct (hR.updateCombatant _ _)) fun _ => ?_
  refine hR.tryBind (hh _ c r) fun _ => ?_
  exact .ofAct (hR.tell (.postCast c r) fun id => hl.postCast id c r)

theorem cast (c : Casting α) : Act.Within R (World.cast l h .ticked c).run := by
  refine .tryGetBind fun w => ?_
  cases h.reply c.skill.handler.ref w c with
  | refused => exact hR.tryPure _
  | accepted target =>
    refine hR.tryBind (.ofAct fun w => hR.aside rfl rfl rfl) fun ready => ?_
    cases ready with
    | false => exact hR.tryPure _
    | true =>
      refine hR.tryBind (.ofAct (hR.askPreCast hl c _)) fun cancelled => ?_
      refine .tryIte (hR.tryPure _) (.tryGetBind fun w => ?_)
      refine .tryIte (hR.tryBind (hR.castInstantly hl hh c _) fun _ => hR.tryPure _) (.ofAct ?_)
      exact hR.bind (hR.enter _ _ _) fun task => hR.bind (hR.note rfl) fun _ => hR.pure _

theorem castNamed (caster : Wielder) (skill : SkillId) (target : Option EntityId) :
    Act.Within R (World.castNamed l h .ticked caster skill target).run := by
  refine .tryGetBind fun w => hR.tryBind (hR.ofExcept _) fun skill => ?_
  exact hR.tryBind (hR.ofExcept _) fun state => hR.cast hl hh _

/-! ### Ticks -/

variable (he : e.Within R)
include he

theorem runJob (j : Job α) : Act.Within R (World.runJob l e h .ticked j) := by
  cases j with
  | channel r => exact hR.turnChannel hl he r
  | delayedCast c r =>
    refine .getBind fun w => .ite (hR.bind (hR.castInstantly hl hh c r) fun answer => ?_) (hR.pure ())
    cases answer with
    | ok _ => exact hR.pure ()
    | error fault => exact hR.note rfl

/-- A tick, where the relation allows the timetable to move on. -/
theorem runTick (ht : ∀ (w : World α η) t, R w { w with timetable := t }) :
    Act.Within R (World.runTick l e h .ticked) := by
  intro w
  refine hR.trans (ht w w.timetable.advance) (hR.foldlM (fun id _ ran w => ?_) 0 _)
  simp only [Timetable.turn, after_get_bind]
  cases (HasTimetable.timetable w).take id with
  | none => exact hR.refl w
  | some taken => exact hR.trans (ht w taken.2) (hR.bind (hR.runJob hl hh he taken.1) (fun _ => hR.pure _) _)

end Lenient

end Fray
