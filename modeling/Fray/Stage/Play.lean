import Fray.Stage.Basic

/-! Playing the scripts of a stage. A listener may resolve another blow while it is told of one, and an effect
    may take a turn while it takes one, so whoever is told is handed everyone one level further down. A level is
    made only when it is reached. -/

namespace Fray
namespace Stage

/-- Everyone on a stage who is told something. -/
structure Troupe (α : Type) where
  listeners : Listeners α (Stage α)
  effects : Effects α (Stage α)
  repertoire : Repertoire α (Stage α)
  scheduling : Scheduling α (Stage α)

namespace Troupe

variable {α : Type}

/-- Nobody does anything. -/
def absent : Troupe α where
  listeners := .silent
  effects := .idle
  repertoire := ⟨fun _ _ _ => .refused, fun _ _ _ => pure ()⟩
  scheduling := .ticked

variable [Amount α] (below : Unit → Troupe α)

/-! ### Listeners -/

/-- A reaction of a listener to an attack; answers whether the attack is cancelled now. -/
def react (name : String) (r : AttackRef) (cancelled : Bool) : Reaction α → Play α Bool
  | .cancel => return true
  | .uncancel => return false
  | .contribute c => do
    record (.contributed name (← contribute c))
    return cancelled
  | .listen name priority times reactions verdict => do
    listen ⟨name, times, reactions, verdict⟩ priority
    return cancelled
  | .expire tick => do
    record (.expired name (← World.expire tick))
    return cancelled
  | .resolve hit => do
    let (outcome, blow) ← World.resolve (below ()).listeners ((← get).host.blow hit)
    record (.resolved name outcome blow)
    return cancelled
  | .change step => do
    record (.changed name (← change r step))
    return cancelled

/-- Counts a reaction of a listener that reacts a bounded number of times; answers what it does. -/
def takeReactions (id : ListenerId) : Play α (List (Reaction α)) := do
  let l := (← get).host.listeners.getD id default
  match l.times with
  | none => return l.reactions
  | some 0 => return []
  | some (n + 1) =>
    update fun s => { s with listeners := s.listeners.modify id fun l => { l with times := some n } }
    return l.reactions

def listener (id : ListenerId) : Play α (Listener α) := return (← get).host.listeners.getD id default

def listenersNow : Listeners α (Stage α) where
  attack id r cancelled := do
    let l ← listener id
    record (.attack l.name ((← get).windows.attack r) cancelled)
    (← takeReactions id).foldlM (fun cancelled => react below l.name r cancelled) cancelled
  kill id attacker target a := do record (.kill (← listener id).name attacker target a.damage.dealt)
  finalized id a final := do record (.finalized (← listener id).name a final)
  preCast id c r cancelled := do
    let l ← listener id
    record (.preCast l.name c.skill.id c.caster.entity r.target cancelled)
    return l.verdict.getD cancelled
  postCast id c r := do record (.postCast (← listener id).name c.skill.id r.target)
  castStart id caster skill := do record (.castStart (← listener id).name caster skill)
  castEnd id caster skill := do record (.castEnd (← listener id).name caster skill)
  display target i := record (.indicator target i)

/-! ### Channelled effects -/

/-- A step with a channelled effect. -/
def step (t : Troupe α) (r : ChannelRef) : ChannelStep → Play α (ChannelAnswer α)
  | .start delay period => do
    match ← (World.startChannel t.listeners t.effects t.scheduling r delay period).run with
    | .ok id => return .task id
    | .error fault => return .refused fault
  | .stop => do
    match ← (World.stopChannel t.listeners t.effects t.scheduling r).run with
    | .ok () => return .done
    | .error fault => return .refused fault
  | .isOver => do
    match World.isChannelOver (← get) t.scheduling r with
    | .ok b => return .truth b
    | .error fault => return .refused fault
  | .task => do
    match World.channelTask (← get) r with
    | .ok id => return .task id
    | .error fault => return .refused fault
  | .turn => do
    World.turnChannel t.listeners t.effects t.scheduling r
    return .done
  | .isCasting => do
    let w ← get
    let c := (w.channel r).casting
    return .truth ((w.combatant c.state).casting.contains c.skill.id)
  | .pulses => return .count ((← get).host.effects.getD r default).pulses

/-- A deed of an effect of the given name, for its cast. -/
def act (name : String) (c : Casting α) : Deed α → Play α Unit
  | .step label s => do
    if let some r := (← get).host.channels.lookup name then record (.stepped label (← (below ()).step r s))
  | .attack label target value element types => do
    if let some target := target.or c.target then
      let r ← (World.attack c.caster target value element types).run
      let w ← get
      record (.attacked label (r.map w.windows.attack))

/-- Logs a moment of an effect, and does what its script asks for then. -/
def live (r : ChannelRef) (m : Moment) (deeds : Effect α → List (Deed α)) : Play α Unit := do
  let w ← get
  let e := w.host.effects.getD r default
  record (.moment m e.name e.pulses)
  (deeds e).forM (act below e.name (w.channel r).casting)

def effectsNow : Effects α (Stage α) where
  shouldEnd r := do
    let w ← get
    let e := w.host.effects.getD r default
    return e.script.limit.any (· ≤ e.pulses) || e.script.heart.any fun heart => !Host.alive w.host heart
  pulse r := do
    update fun s => { s with effects := s.effects.modify r fun e => { e with pulses := e.pulses + 1 } }
    live below r .pulse fun e => (e.script.onPulse.lookup e.pulses).getD []
  onStart r := live below r .start (·.script.onStart)
  onEnd r := live below r .finish (·.script.onEnd)

/-! ### Handlers -/

/-- A feat of a handler. -/
def perform (c : Casting α) (r : Reply) : Feat α → Try α (Stage α) Unit
  | .attack parameter value element types => do
    let w ← get
    if let some target := r.target then
      let value := (parameter.map (w.parameter c)).getD value
      discard (World.attack c.caster target value element types)
  | .fail fault => throw fault
  | .channel name delay period script => do
    let r ← Try.ofAct (channel name c script)
    let t := below ()
    discard (World.startChannel t.listeners t.effects t.scheduling r delay period)

def repertoireNow : Repertoire α (Stage α) where
  reply ref w c :=
    let accepted := match (w.host.handlers.getD ref default).accepts with
      | .always => true
      | .never => false
      | .withTarget => c.target.isSome
      | .whileIdle => !(w.combatant c.state).casting.contains c.skill.id
    if accepted then .accepted c.target else .refused
  perform ref c r := do
    let w ← get
    let script := w.host.handlers.getD ref default
    .ofAct (record (.performed c.skill.id c.caster c.target (script.shown.map (w.parameter c)) c.source))
    script.feats.forM (perform below c r)

/-! ### Levels -/

/-- Jobs run as the stage wants it. -/
def schedulingNow : Scheduling α (Stage α) where
  schedule j delay period := do
    if (← get).host.eager then
      let t := below ()
      (Scheduling.eager (World.runJob t.listeners t.effects t.repertoire t.scheduling)).schedule j delay period
    else Scheduling.ticked.schedule j delay period
  cancel := Scheduling.ticked.cancel
  isCancelled := Scheduling.ticked.isCancelled

/-- Everyone, with everyone else one level below. -/
def above : Troupe α where
  listeners := listenersNow below
  effects := effectsNow below
  repertoire := repertoireNow below
  scheduling := schedulingNow below

/-- Everyone, told of up to `depth` things within each other. -/
def within : (depth : Nat) → Troupe α
  | 0 => .absent
  | depth + 1 => above fun _ => within depth

/-- Deeper than any play goes. -/
def depth : Nat := 100000

def all : Troupe α := within depth

/-! ### What the troupe plays -/

variable (t : Troupe α)

def resolve (b : Blow α) : Play α (Outcome α × Blow α) := World.resolve t.listeners b

def cast (c : Casting α) : Try α (Stage α) CastOutcome := World.cast t.listeners t.repertoire t.scheduling c

/-- A cast without any check. -/
def castInstantly (c : Casting α) : Try α (Stage α) Unit :=
  World.castInstantly t.listeners t.repertoire c (.accepted c.target)

/-- An attempt of an entity to cast a registered skill, with the hand of a slot. -/
def castNamed (caster : EntityId) (slot : Slot) (skill : SkillId) (target : Option EntityId) :
    Try α (Stage α) CastOutcome := do
  let caster ← Try.ofExcept (Wielder.ofSlot caster slot)
  World.castNamed t.listeners t.repertoire t.scheduling caster skill target

/-- One tick; answers how many jobs ran. -/
def tick : Play α Nat := World.runTick t.listeners t.effects t.repertoire t.scheduling

end Troupe
end Stage
end Fray
