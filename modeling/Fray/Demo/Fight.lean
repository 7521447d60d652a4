import Fray.Arena.Spell
import Fray.Decimal.Fixed
import Fray.Random.Stream
import Fray.Settings

/-! The fight of the demonstration: a knight with a sword, a ring and two spells against a pack of wolves. -/

namespace Fray
namespace Demo

/-! ### Who tells of it -/

abbrev Fight (β : Type) := Act Float (Arena Float) β

def say (line : String) : Fight Unit := World.note (.said .info line)

def tenths (x : Float) : String := Decimal.fixedText 1 x

/-- The herald announces who slays whom; damage numbers are written down. -/
def listeners : Listeners Float (Arena Float) :=
  { Listeners.silent with
    kill := fun _ attacker target _ => do
      let a := (← get).host
      say (a.name attacker ++ " slays " ++ a.name target)
    display := fun target i => do
      let a := (← get).host
      say ("  " ++ i.text tenths ++ " -> " ++ a.name target) }

def herald : Subscription := ⟨.listener 0, 0⟩

/-! ### Skills and equipment -/

def fireBolt : SkillId := Arena.Spell.fireBolt.info.id

def burningAura : SkillId := Arena.Spell.burningAura.info.id

def attackDamage : String := "attack_damage"

/-- A sword, a ring of might, and a dagger in the off hand that never counts for the main hand. -/
def equipment : List (StatModifier Float) :=
  [⟨⟨⟨1⟩, "iron_sword", .meleeWeapon, .mainHand, 5.0, .flat⟩, attackDamage⟩,
   ⟨⟨⟨2⟩, "ring_of_might", .other, .other, 20.0, .relative⟩, attackDamage⟩,
   ⟨⟨⟨3⟩, "dagger", .meleeWeapon, .offHand, 3.0, .flat⟩, attackDamage⟩]

/-- The ring also halves the cooldown of the bolt. -/
def ringOfHaste : Except (Fault Float) (SkillModifier Float) :=
  SkillModifier.new ⟨⟨4⟩, "ring_of_might", .other, .other, -50.0, .relative⟩ [fireBolt] "cooldown"

/-! ### The fighters -/

structure Party where
  knight : Wielder
  /-- The state of the knight. -/
  state : StateRef
  wolves : List EntityId

/-- How hard the knight hits. -/
def swing (w : World Float (Arena Float)) (p : Party) : Float := (w.combatant p.state).stats.total attackDamage 1.0

def enterWolf (i : Nat) : Fight EntityId := do
  let wolf ← Arena.spawn ⟨s!"Wolf {i + 1}", 18.0, false, .empty⟩
  discard (World.connect wolf)
  return wolf

def enter (wolves : Nat) : Try Float (Arena Float) Party := do
  discard (World.learn fireBolt [("damage", 6.0), ("cooldown", 2.0)])
  discard (World.learn burningAura [("damage", 1.5), ("pulses", 4.0), ("cooldown", 6.0), ("delay", 0.5)])
  let knight ← Try.ofAct (Arena.spawn ⟨"Knight", 40.0, true, .weapon⟩)
  let state ← Try.ofAct (World.connect knight)
  let haste ← Try.ofExcept ringOfHaste
  .ofAct <| World.updateCombatant state fun c =>
    { c with stats := equipment.foldl Stats.register c.stats, skillModifiers := (c.skillModifiers.add haste).2 }
  let p : Party := ⟨⟨knight, .main⟩, state, []⟩
  .ofAct (say ("Knight swings for " ++ tenths (swing (← get) p)))
  let wolves ← Try.ofAct ((List.range wolves).mapM enterWolf)
  return { p with wolves }

/-! ### Tick by tick -/

/-- Every fifteenth tick the knight tries the aura. -/
def tryAura (p : Party) : Try Float (Arena Float) Unit := do
  match ← Arena.cast listeners p.knight.entity p.knight.hand.slot burningAura none with
  | .delayed task => .ofAct (say ("Knight channels Burning Aura (" ++ task.text ++ ")"))
  | .cast => .ofAct (say "Knight casts Burning Aura")
  | _ => return ()

/-- Every seventh tick the knight tries the bolt. -/
def tryBolt (p : Party) (prey : EntityId) : Try Float (Arena Float) Unit := do
  if (← Arena.cast listeners p.knight.entity p.knight.hand.slot fireBolt (some prey)) = .cast then
    .ofAct (say ("Knight hurls a Fire Bolt at " ++ (← get).host.name prey))

/-- Every fifth tick the knight swings, one time in five with a crit. -/
def swingAt (p : Party) (prey : EntityId) (g : Random) : Try Float (Arena Float) Random := do
  let attack ← World.attack p.knight prey (swing (← get) p) none [.weapon, .physical]
  let (crit, g) := g.chance 0.2
  if crit then
    World.editAttack attack (.scale .all 1.5)
    World.editAttack attack (.weaponCrit true)
  discard (Try.ofAct (Arena.strike listeners (some (.entity p.knight.entity)) prey .entityAttack 1.0))
  return g

/-- A living wolf bites one time in ten. -/
def bite (p : Party) (g : Random) (wolf : EntityId) : Fight Random := do
  if !Host.alive (← get).host wolf then return g
  let (bites, g) := g.chance 0.1
  if !bites then return g
  let (amount, g) := g.between 1.0 3.0
  discard (Arena.strike listeners (some (.entity wolf)) p.knight.entity .entityAttack amount)
  return g

def exchange (p : Party) (prey : EntityId) (tick : Nat) (g : Random) : Try Float (Arena Float) Random := do
  if tick % 15 = 0 then tryAura p
  if tick % 7 = 0 then tryBolt p prey
  let g ← if tick % 5 = 0 then swingAt p prey g else pure g
  .ofAct (p.wolves.foldlM (bite p) g)

/-- Plays the ticks that are left, until the knight or every wolf is dead. -/
def play (p : Party) : (left : Nat) → (tick : Nat) → Random → Try Float (Arena Float) Unit
  | 0, _, _ => return ()
  | left + 1, tick, g => do
    discard (Try.ofAct (Arena.turn listeners))
    let a := (← get).host
    if !Host.alive a p.knight.entity then return ()
    match a.living false with
    | [] => return ()
    | prey :: _ => do
      let g ← exchange p prey tick g
      play p left (tick + 1) g

/-- Tells how it ended, and everyone leaves. -/
def leave (p : Party) : Fight Unit := do
  let a := (← get).host
  let left := (a.living false).length
  match Host.health a p.knight.entity with
  | some health => say s!"Knight stands with {tenths health} hp, {left} wolves left"
  | none => World.note (.said .warn s!"Knight has fallen, {left} wolves left")
  p.wolves.forM fun wolf => discard (World.disconnect wolf)
  discard (World.disconnect p.knight.entity)

def fight (c : Config) (settings : Settings) (entropy : UInt64) : Try Float (Arena Float) Unit := do
  discard (Try.ofAct (World.enableIndicators c))
  .ofAct (World.subscribe herald)
  .ofAct Arena.registerHandlers
  let p ← enter settings.arena.wolves.toNat
  play p settings.arena.ticks.toNat 1 (.ofSeed (settings.arena.seed.getD entropy))
  .ofAct (leave p)

end Demo
end Fray
