import Fray.Damage.Attack

/-! Open windows. What is contributed while a window is open is merged into one attack; a window is closed when
    its attack is resolved, and dropped once a later tick begins. -/

namespace Fray

/-- A handle of an attack, shared between everything that contributes to it. -/
abbrev AttackRef := Nat

structure Windows (α : Type) where
  /-- Every attack that ever opened a window, by handle. -/
  attacks : Array (Attack α) := #[]
  /-- The open windows and their attacks. -/
  opened : List (WindowKey × AttackRef) := []

namespace Windows

variable {α : Type}

instance : Inhabited (Windows α) := ⟨{}⟩

/-- The attack behind a handle; a handle never given out stands for an attack without packets. -/
def attack (w : Windows α) (r : AttackRef) : Attack α := w.attacks.getD r default

def update (w : Windows α) (r : AttackRef) (f : Attack α → Attack α) : Windows α :=
  { w with attacks := w.attacks.modify r f }

def find? (w : Windows α) (k : WindowKey) : Option AttackRef := w.opened.lookup k

def size (w : Windows α) : Nat := w.opened.length

def expire (w : Windows α) (tick : Nat) : Windows α :=
  { w with opened := w.opened.filter fun o => tick ≤ o.1.tick }

/-- Takes a window out, whatever its attack. -/
def remove (w : Windows α) (k : WindowKey) : Windows α := { w with opened := w.opened.filter fun o => o.1 ≠ k }

/-- Closes a window if the attack is still the one behind it. -/
def close (w : Windows α) (k : WindowKey) (r : AttackRef) : Windows α :=
  if w.find? k = some r then w.remove k else w

/-- Contributes an attack. Windows of earlier ticks can no longer be resolved and are dropped; the damage is
    merged into the attack of an open window, and opens a window otherwise. -/
def register (w : Windows α) (k : WindowKey) (a : Attack α) : AttackRef × Windows α :=
  let w := w.expire k.tick
  match w.find? k with
  | some r => (r, w.update r fun b => { b with damage := b.damage.merge a.damage })
  | none => (w.attacks.size, ⟨w.attacks.push a, w.opened ++ [(k, w.attacks.size)]⟩)

end Windows

end Fray
