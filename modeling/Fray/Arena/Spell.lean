import Fray.Arena.Basic
import Fray.Engine.Cast

/-! The two skills of the arena: a bolt of fire on one target, and an aura that burns every mob around its caster
    for a while. -/

namespace Fray
namespace Arena

inductive Spell where
  | fireBolt
  | burningAura
  deriving DecidableEq

namespace Spell

def all : List Spell := [fireBolt, burningAura]

def info : Spell → HandlerInfo
  | fireBolt => .new "Fire Bolt" ["damage"]
  | burningAura => .new "Burning Aura" ["damage", "pulses"]

def ref : Spell → HandlerRef
  | fireBolt => 0
  | burningAura => 1

def ofRef (r : HandlerRef) : Spell := if r = 0 then fireBolt else burningAura

theorem ofRef_ref (s : Spell) : ofRef s.ref = s := by cases s <;> rfl

def handler (s : Spell) : Handler := ⟨s.info, s.ref⟩

end Spell

variable {α : Type} [Amount α]

/-- The caster attacks a target with fire, and strikes it. -/
def burn (l : Listeners α (Arena α)) (caster : Wielder) (target : EntityId) (damage : α) (type : DamageType)
    (cause : Cause) : Try α (Arena α) Unit := do
  discard (World.attack caster target damage (some .fire) [.skill, type])
  discard (Try.ofAct (strike l (some (.entity caster.entity)) target cause damage))

/-! ### The aura -/

def aura (a : Arena α) (r : ChannelRef) : Aura α := (a.auras.lookup r).getD ⟨0, 0, 0⟩

def setAura (r : ChannelRef) (x : Aura α) : Act α (Arena α) Unit :=
  update fun a => { a with auras := (r, x) :: a.auras.filter fun p => p.1 ≠ r }

/-- The most pulses that an aura can have. -/
def maxPulses : Nat := Nat.pow 2 32 - 1

/-- Whom an effect belongs to. -/
def casterOf (w : World α (Arena α)) (r : ChannelRef) : Wielder := (w.channel r).casting.caster

/-- An aura ends when it has pulsed as often as it should, when its caster is dead, and when no mob is left. It
    burns every mob that lives when the pulse begins. -/
def effects (l : Listeners α (Arena α)) : Effects α (Arena α) where
  shouldEnd r := do
    let w ← get
    let x := w.host.aura r
    return decide (x.limit ≤ x.pulses) || !Host.alive w.host (casterOf w r).entity || (w.host.living false).isEmpty
  pulse r := do
    let w ← get
    let x := w.host.aura r
    setAura r { x with pulses := x.pulses + 1 }
    (w.host.living false).forM fun target => discard (burn l (casterOf w r) target x.damage .dot .fireTick).run
  onStart r := do
    let w ← get
    World.note (.wreathed (w.host.name (casterOf w r).entity))
  onEnd r := do
    let w ← get
    World.note (.flamesDie (w.host.name (casterOf w r).entity))

/-- Ticks between two pulses of an aura. -/
def auraPeriod : Nat := 10

/-! ### Casting -/

/-- A bolt needs a target that its caster may hit; an aura needs a living caster without one. -/
def reply (s : Spell) (w : World α (Arena α)) (c : Casting α) : Reply :=
  match s with
  | .fireBolt => match c.target with
    | some target =>
      if w.gate.canInteract w.host c.caster.entity target .offenseSkill then .accepted target else .refused
    | none => .refused
  | .burningAura =>
    if (w.combatant c.state).casting.contains c.skill.id || !Host.alive w.host c.caster.entity then .refused
    else .accepted none

def perform (l : Listeners α (Arena α)) (s : Spell) (c : Casting α) (r : Reply) : Try α (Arena α) Unit := do
  let w ← get
  let damage := w.parameter c "damage"
  match s with
  | .fireBolt => if let some target := r.target then burn l c.caster target damage .magic .magic
  | .burningAura =>
    let limit := min (Amount.floor (Amount.larger (w.parameter c "pulses") 0)) maxPulses
    let ch ← Try.ofAct (World.newChannel c)
    .ofAct (setAura ch ⟨damage, limit, 0⟩)
    discard (World.startChannel l (effects l) .ticked ch 0 auraPeriod)

def repertoire (l : Listeners α (Arena α)) : Repertoire α (Arena α) where
  reply r w c := reply (.ofRef r) w c
  perform r c answer := perform l (.ofRef r) c answer

def registerHandlers : Act α (Arena α) Unit := Spell.all.forM fun s => World.registerHandler s.handler

def cast (l : Listeners α (Arena α)) (caster : EntityId) (slot : Slot) (skill : SkillId)
    (target : Option EntityId) : Try α (Arena α) CastOutcome := do
  let caster ← Try.ofExcept (Wielder.ofSlot caster slot)
  World.castNamed l (repertoire l) .ticked caster skill target

/-- Advances the arena by a tick and runs what is due; answers the tick and how many jobs ran. -/
def turn (l : Listeners α (Arena α)) : Act α (Arena α) (Nat × Nat) := do
  let tick ← advance
  return (tick, ← World.runTick l (effects l) (repertoire l) .ticked)

end Arena
end Fray
