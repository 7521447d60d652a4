import Fray.Engine.Channel

/-! Casting. The handler has to accept, the skill has to be off cooldown, and no listener may cancel; then the
    effect comes at once, or after the delay of the skill. -/

namespace Fray

/-- What handlers answer and do. -/
structure Repertoire (α η : Type) where
  reply : HandlerRef → World α η → Casting α → Reply
  perform : HandlerRef → Casting α → Reply → Try α η Unit

namespace World

variable {α η : Type} [Amount α] [Host η α]

/-- The effect of a cast: the cooldown begins, the handler acts, and the listeners are told. A handler that
    fails leaves the cooldown in place. -/
def castInstantly (l : Listeners α η) (h : Repertoire α η) (c : Casting α) (r : Reply) : Try α η Unit := do
  let w ← get
  let cooldown := ticksOfSeconds (w.parameter c "cooldown")
  .ofAct <| updateCombatant c.state fun f =>
    { f with cooldowns := f.cooldowns.put c.skill.id (Host.tick w.host) cooldown }
  h.perform c.skill.handler.ref c r
  .ofAct <| l.tellPostCast c r

def testCooldown (c : Casting α) : Act α η Bool := do
  let w ← get
  let (ready, cooldowns) := (w.combatant c.state).cooldowns.test c.skill.id (Host.tick w.host)
  updateCombatant c.state fun f => { f with cooldowns }
  return ready

/-- An attempt to cast. -/
def cast (l : Listeners α η) (h : Repertoire α η) (s : Scheduling α η) (c : Casting α) :
    Try α η CastOutcome := do
  match h.reply c.skill.handler.ref (← get) c with
  | .refused => return .refused
  | .accepted target =>
    let r := Reply.accepted target
    unless ← Try.ofAct (testCooldown c) do return .onCooldown
    if ← Try.ofAct (l.askPreCast c r) then return .cancelled
    let delay := ticksOfSeconds ((← get).parameter c "delay")
    if delay = 0 then
      castInstantly l h c r
      return .cast
    else .ofAct do
      let task ← s.schedule (.delayedCast c r) delay 0
      note (.castDelayed c.skill.id task delay)
      return .delayed task

/-- An attempt of a connected entity to cast a registered skill. -/
def castNamed (l : Listeners α η) (h : Repertoire α η) (s : Scheduling α η) (caster : Wielder) (skill : SkillId)
    (target : Option EntityId) : Try α η CastOutcome := do
  let w ← get
  let skill ← Try.ofExcept (w.skills.require skill.text)
  let state ← Try.ofExcept (w.roster.require caster.entity)
  cast l h s ⟨skill, caster, state, target, none⟩

/-- Runs what was scheduled. Without the engine a delayed cast comes to nothing. -/
def runJob (l : Listeners α η) (e : Effects α η) (h : Repertoire α η) (s : Scheduling α η) :
    Job α → Act α η Unit
  | .delayedCast c r => do
    if (← get).running then
      if let .error fault ← (castInstantly l h c r).run then note (.delayedCastFailed c.skill.id fault)
  | .channel r => turnChannel l e s r

/-- Runs one tick of the timetable; answers how many jobs ran. -/
def runTick (l : Listeners α η) (e : Effects α η) (h : Repertoire α η) (s : Scheduling α η) : Act α η Nat :=
  Timetable.tick (runJob l e h s)

end World
end Fray
