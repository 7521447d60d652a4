import Fray.Engine.Listeners
import Fray.Engine.Scheduling

/-! Channelled effects: what a cast does again and again until it is asked to end or is stopped. While it runs,
    its skill is in the casting set of its caster. It is started once, and it ends once. -/

namespace Fray

/-- What channelled effects do. -/
structure Effects (α η : Type) where
  /-- Asked before every pulse; the effect ends when it is so. -/
  shouldEnd : ChannelRef → Act α η Bool
  pulse : ChannelRef → Act α η Unit
  onStart : ChannelRef → Act α η Unit
  onEnd : ChannelRef → Act α η Unit

/-- Effects that do nothing and never end by themselves. -/
def Effects.idle {α η : Type} : Effects α η where
  shouldEnd _ := pure false
  pulse _ := pure ()
  onStart _ := pure ()
  onEnd _ := pure ()

namespace World

variable {α η : Type}

/-- The effect behind a handle; a handle never given out stands for one that was never started. -/
def channel (w : World α η) (r : ChannelRef) : Channel α := w.channels.getD r default

def phase (w : World α η) (r : ChannelRef) : Phase := (w.channel r).phase

/-- An effect of a cast, not yet started. -/
def newChannel (c : Casting α) : Act α η ChannelRef := do
  let w ← get
  set { w with channels := w.channels.push ⟨c, .idle⟩ }
  return w.channels.size

def setPhase (r : ChannelRef) (p : Phase) : Act α η Unit :=
  modify fun w => { w with channels := w.channels.modify r fun ch => { ch with phase := p } }

/-- The skill of an effect enters the casting set of its caster, or leaves it. -/
def setCasting (c : Casting α) (on : Bool) : Act α η Unit :=
  updateCombatant c.state fun f =>
    { f with casting := ((if on then f.casting.start else f.casting.stop) c.skill.id).2 }

/-- Ends an effect, unless it has ended. One that was never started cannot be stopped. -/
def stopChannel (l : Listeners α η) (e : Effects α η) (s : Scheduling α η) (r : ChannelRef) : Try α η Unit := do
  let w ← get
  let c := (w.channel r).casting
  match w.phase r with
  | .idle => throw .notScheduled
  | .ended _ => return ()
  | .starting => .ofAct do
    setPhase r (.ended none)
    finish c none
  | .running id => .ofAct do
    setPhase r (.ended (some id))
    finish c (some id)
where
  /-- What happens to an effect that ends; without the engine it only leaves the casting set. -/
  finish (c : Casting α) (task : Option TaskId) : Act α η Unit := do
    if (← get).running then
      if let some id := task then s.cancel id
      e.onEnd r
      setCasting c false
      l.tellCastEnd r c.caster.entity c.skill.id
      note (.channelEnded c.skill.id task)
    else setCasting c false

/-- A turn of an effect: it ends if it should, and pulses otherwise. -/
def turnChannel (l : Listeners α η) (e : Effects α η) (s : Scheduling α η) (r : ChannelRef) : Act α η Unit := do
  let w ← get
  let active := match w.phase r with
    | .running _ | .starting => true
    | .idle | .ended _ => false
  if active && w.running then
    if ← e.shouldEnd r then discard (stopChannel l e s r).run
    else e.pulse r

/-- Starts an effect: a first turn after `delay` ticks, then one in every `period` ticks. The caster is casting
    and the effect has begun before the scheduler hears of it. -/
def startChannel (l : Listeners α η) (e : Effects α η) (s : Scheduling α η) (r : ChannelRef)
    (delay period : Nat) : Try α η TaskId := do
  let w ← get
  unless w.running do throw .engineDropped
  match w.phase r with
  | .running id | .ended (some id) => throw (.alreadyScheduled id)
  | .starting | .ended none => throw .beingScheduled
  | .idle => .ofAct do
    let c := (w.channel r).casting
    setPhase r .starting
    setCasting c true
    e.onStart r
    l.tellCastStart r c.caster.entity c.skill.id
    let id ← s.schedule (.channel r) delay (max period 1)
    -- the first turn may have come, and the effect ended, before the scheduler answered
    if (← get).phase r = .starting then setPhase r (.running id)
    else
      setPhase r (.ended (some id))
      s.cancel id
    note (.channelStarted c.skill.id id)
    return id

/-- The effect has ended, or its task will never run again. -/
def isChannelOver (w : World α η) (s : Scheduling α η) (r : ChannelRef) : Except (Fault α) Bool :=
  match w.phase r with
  | .idle | .starting => .error .notScheduled
  | .ended _ => .ok true
  | .running id => if w.running then .ok (s.isCancelled w id) else .error .engineDropped

/-- The task of an effect, once it has one. -/
def channelTask (w : World α η) (r : ChannelRef) : Except (Fault α) TaskId :=
  match w.phase r with
  | .running id | .ended (some id) => .ok id
  | .idle | .starting | .ended none => .error .notScheduled

end World
end Fray
