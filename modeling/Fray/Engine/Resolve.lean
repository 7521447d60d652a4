import Fray.Engine.Listeners

/-! The resolution of blows. An attack is found behind the blow or discovered from it, checked by the gate when
    a player deals it, shown to the listeners, closed, and written back to the blow. A denied, cancelled or
    failed attack cancels the blow. -/

namespace Fray
namespace World

variable {α η : Type} [Amount α]

/-! ### Windows -/

def updateWindows (f : Windows α → Windows α) : Act α η Unit := modify fun w => { w with windows := f w.windows }

/-- Drops the windows of the ticks before `tick`; answers how many there were. -/
def expire (tick : Nat) : Act α η Nat := do
  let w ← get
  let windows := w.windows.expire tick
  let dropped := w.windows.size - windows.size
  set { w with windows }
  if 0 < dropped then note (.windowsDropped dropped tick)
  return dropped

/-- Contributes an attack to a window. -/
def register (k : WindowKey) (a : Attack α) : Act α η AttackRef := do
  discard (expire k.tick)
  let w ← get
  let (r, windows) := w.windows.register k a
  set { w with windows }
  return r

/-- Takes a window out; answers its attack. -/
def unregister (k : WindowKey) : Act α η (Option AttackRef) := do
  let r := (← get).windows.find? k
  updateWindows (·.remove k)
  return r

def close (k : WindowKey) (r : AttackRef) : Act α η Unit := updateWindows (·.close k r)

/-- Edits an attack; a refused edit leaves it as it was. -/
def editAttack (r : AttackRef) (e : Damage.Edit α) : Try α η Unit := do
  let d ← Try.ofExcept (((← get).windows.attack r).damage.edit e)
  .ofAct (updateWindows (·.update r fun a => { a with damage := d }))

variable [Host η α]

/-- An acting entity deals damage to a target in the current tick. -/
def attack (wielder : Wielder) (target : EntityId) (value : α) (element : Option Element) (types : List DamageType) :
    Try α η AttackRef := do
  let damage ← Try.ofExcept (Damage.new value element types)
  let tick := Host.tick (← get).host
  .ofAct (register ⟨target, some wielder.entity, tick⟩ ⟨damage, target, some wielder, .generic⟩)

/-! ### Discovery -/

/-- The attack that a blow amounts to by itself. A living damager attacks with its main hand, and so does the
    living shooter of a projectile unless it hit itself; any other blow has no attacker. -/
def discover (host : η) (b : Blow α) : Except (Fault α) (Attack α) := do
  let unattended : Except (Fault α) (Attack α) := do
    return ⟨← Damage.new b.amount none b.cause.damageTypes, b.target, none, .generic⟩
  match b.damager with
  | some (.entity e) =>
    if Host.alive host e then
      let types := b.cause.meleeDamageTypes (Host.held host e .main)
      return ⟨← Damage.new b.amount none types, b.target, some ⟨e, .main⟩,
        if b.cause.isMelee then .melee else .generic⟩
    else unattended
  | some (.projectile p (some shooter)) =>
    if shooter ≠ b.target ∧ Host.alive host shooter then
      return ⟨← Damage.new b.amount none [.weapon, .physical, .projectile], b.target, some ⟨shooter, .main⟩,
        .projectile p⟩
    else unattended
  | _ => unattended

/-- The attack behind a blow that deals something: the one contributed to its window, else the first that a
    discoverer makes of it, else the one that it amounts to by itself. A new attack opens the window. -/
def locate (b : Blow α) : Try α η AttackRef := do
  let w ← get
  match w.windows.find? b.key with
  | some r => return r
  | none =>
    match w.discoverers.findSome? fun discover => discover w.host b with
    | some a => .ofAct (register b.key a)
    | none =>
      let a ← Try.ofExcept (discover w.host b)
      .ofAct (register b.key a)

/-- The attack behind a blow; none behind one that deals nothing. -/
def findAttack (b : Blow α) : Try α η (Option AttackRef) := do
  if Amount.IsZero b.amount then return none
  return some (← locate b)

/-! ### Resolution -/

/-- A player may not deal the attack. -/
def isDenied (w : World α η) (k : WindowKey) (a : Attack α) : Bool :=
  match a.attacker with
  | none => false
  | some wielder =>
    Host.player w.host wielder.entity &&
      let i : Interaction := if a.damage.hasType .skill then .offenseSkill else .offenseAction
      !w.gate.canInteract w.host wielder.entity k.target i

/-- Writes the damage of a finished attack back and tells of it. `health` is what the target had before the
    attack was shown to the listeners. -/
def finish (l : Listeners α η) (b : Blow α) (a : Attack α) (health : Option α) :
    Act α η (Outcome α × Blow α) := do
  let damage := a.damage.dealt
  match b.write damage with
  | .error fault =>
    note (.attackFailed b.target fault)
    return (.cancelled, b.cancel)
  | .ok b =>
    let killer := match a.attacker, health with
      | some wielder, some h => if h ≤ damage then some wielder.entity else none
      | _, _ => none
    if let some killer := killer then l.tellKill killer b.target a
    l.tellFinalized a damage
    return (.applied damage killer.isSome, b)

/-- Applies a located attack: asks the gate, then the listeners, and closes the window before the attack is
    read for the last time, so that what is contributed later opens a new one. -/
def apply (l : Listeners α η) (b : Blow α) (r : AttackRef) : Act α η (Outcome α × Blow α) := do
  let w ← get
  let health := Host.health w.host b.target
  let a := w.windows.attack r
  if isDenied w b.key a then
    if let some wielder := a.attacker then note (.attackDenied wielder.entity b.target)
    close b.key r
    return (.denied, b.cancel)
  let cancelled ← l.askAttack r
  close b.key r
  if cancelled then return (.cancelled, b.cancel)
  finish l b ((← get).windows.attack r) health

/-- Resolves a blow. One that deals nothing is no attack and leaves its window open. -/
def resolve (l : Listeners α η) (b : Blow α) : Act α η (Outcome α × Blow α) := do
  if Amount.IsZero b.amount then return (.ignored, b)
  discard (expire b.tick)
  if b.cancelled then
    discard (unregister b.key)
    return (.cancelled, b)
  match ← (locate b).run with
  | .error fault =>
    note (.attackFailed b.target fault)
    return (.cancelled, b.cancel)
  | .ok r => apply l b r

end World
end Fray
