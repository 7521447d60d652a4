import Mathlib.Data.List.Perm.Basic
import Fray.Proofs.Exact

/-! Damage that is made of the same packets in another order. Nothing that is asked of damage asks for the order, so
    such damage tells the same: the crits, the types and elements, the exact sums, and the numbers that are shown. -/

namespace Fray
namespace Damage

/-- The same packets in some order, and the same crits. What the damage began with is left open. -/
structure Blend {α : Type} (d e : Damage α) : Prop where
  packets : d.packets.Perm e.packets
  weaponCrit : d.weaponCrit = e.weaponCrit
  skillCrit : d.skillCrit = e.skillCrit
  elementCrits : d.elementCrits = e.elementCrits

/-- Whatever is asked of the one damage, the other answers the same. -/
structure Agrees (d e : Damage Rat) : Prop where
  weaponCrit : d.weaponCrit = e.weaponCrit
  skillCrit : d.skillCrit = e.skillCrit
  elementCrits : ∀ x, d.elementCrits x = e.elementCrits x
  types : d.types = e.types
  elements : d.elements = e.elements
  dealt : d.dealt = e.dealt
  ofType : ∀ t, d.ofType t = e.ofType t
  ofElement : ∀ x, d.ofElement x = e.ofElement x
  elemental : d.elemental = e.elemental

namespace Blend

variable {d e : Damage Rat} (h : d.Blend e)
include h

theorem sum_where (p : Packet Rat → Bool) :
    ((d.packets.filter p).map Packet.final).sum = ((e.packets.filter p).map Packet.final).sum :=
  ((h.packets.filter p).map _).sum_eq

theorem dealt_eq : d.dealt = e.dealt := by
  rw [Damage.dealt_eq, Damage.dealt_eq, (h.packets.map _).sum_eq]

theorem totalWhere_eq (p : Packet Rat → Bool) : d.totalWhere p = e.totalWhere p := by
  rw [totalWhere_eq_sum, totalWhere_eq_sum, h.sum_where]

theorem hasType_eq (t : DamageType) : d.hasType t = e.hasType t := h.packets.any_eq

theorem hasElement_eq (x : Option Element) : d.hasElement x = e.hasElement x := h.packets.any_eq

theorem elements_eq : d.elements = e.elements := List.filter_congr fun x _ => h.hasElement_eq (some x)

theorem agrees : d.Agrees e where
  weaponCrit := h.weaponCrit
  skillCrit := h.skillCrit
  elementCrits := congrFun h.elementCrits
  types := List.filter_congr fun t _ => h.hasType_eq t
  elements := h.elements_eq
  dealt := h.dealt_eq
  ofType t := h.totalWhere_eq _
  ofElement x := h.totalWhere_eq _
  elemental := by
    rw [elemental, elemental, h.elements_eq]
    refine List.map_congr_left fun x _ => ?_
    rw [Amount.foldl_add, Amount.foldl_add, h.sum_where]

/-! ### Numbers that are shown -/

theorem occurring_eq : DamageGroup.occurring d = DamageGroup.occurring e :=
  List.filter_congr fun _ _ => h.packets.any_eq

theorem groupTotal_eq (g : DamageGroup) : g.total d = g.total e := by
  rw [DamageGroup.total, DamageGroup.total, Amount.foldl_add, Amount.foldl_add, h.sum_where]

theorem isCrit_eq (g : DamageGroup) : g.isCrit d = g.isCrit e := by
  rw [DamageGroup.isCrit, DamageGroup.isCrit, h.weaponCrit, h.skillCrit, h.elementCrits]

theorem indicators_eq (final : Rat) : Indicator.ofDamage d final = Indicator.ofDamage e final := by
  simp only [Indicator.ofDamage, h.dealt_eq, h.occurring_eq, h.groupTotal_eq, h.isCrit_eq]

end Blend
end Damage
end Fray
