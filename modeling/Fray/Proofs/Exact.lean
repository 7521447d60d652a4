import Mathlib.Algebra.Order.Ring.Rat
import Mathlib.Algebra.BigOperators.Group.List.Basic
import Fray.Damage.Indicator

/-! Amounts read as exact rationals: sums no longer depend on their order, and the larger of two amounts is their
    maximum. -/

namespace Fray

namespace Amount

theorem foldl_add (xs : List Rat) (a : Rat) : xs.foldl (· + ·) a = a + xs.sum := by
  rw [List.foldl_eq_apply_foldr]
  rfl

theorem sum_eq_sum (xs : List Rat) : sum xs = xs.sum := (foldl_add xs 0).trans (zero_add _)

theorem larger_eq_max (a b : Rat) : larger a b = max a b := by
  unfold larger
  by_cases h : a < b
  · simp [h, max_eq_right h.le]
  · simp [h, max_eq_left (not_lt.mp h)]

theorem leastDamage_eq : (leastDamage : Rat) = 1 / 100 := rfl

end Amount

theorem Damage.dealt_eq (d : Damage Rat) : d.dealt = max (d.packets.map Packet.final).sum (1 / 100) := by
  rw [dealt, Amount.larger_eq_max, total, Amount.sum_eq_sum, Amount.leastDamage_eq]

theorem Damage.totalWhere_eq_sum (d : Damage Rat) (p : Packet Rat → Bool) :
    d.totalWhere p = ((d.packets.filter p).map Packet.final).sum := Amount.sum_eq_sum _

theorem Damage.leastDamage_le_dealt (d : Damage Rat) : 1 / 100 ≤ d.dealt := by
  rw [dealt_eq]
  exact le_max_right _ _

end Fray
