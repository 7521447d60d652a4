import Fray.Equipment
import Fray.Ident

/-! What the engine asks the game that it is part of. -/

namespace Fray

/-- The host's view of its entities. An entity that it does not know is dead, no player, without health. -/
class Host (η : Type) (α : outParam Type) where
  tick : η → Nat
  alive : η → EntityId → Bool
  /-- The health that a living entity has left. -/
  health : η → EntityId → Option α
  player : η → EntityId → Bool
  targetable : η → EntityId → Bool
  /-- PvP is on where the entity stands. -/
  pvp : η → EntityId → Bool
  held : η → EntityId → Hand → HeldItem

end Fray
