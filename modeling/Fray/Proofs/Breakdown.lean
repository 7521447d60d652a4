import Fray.Proofs.Totals

/-! The numbers that an attack is broken down to. There is one for each group of packets that occurs, in the order of
    the groups; together they account for all that was dealt, and what was dealt beyond the worth of the packets is
    spread evenly over them. -/

namespace Fray

/-! ### Groups -/

namespace DamageGroup

/-- No element comes first, then the elements as they are listed. -/
def place : Option Element → Nat
  | none => 0
  | some e => e.ctorIdx + 1

/-- Not physical before physical, and within each half by the element. -/
def Before (g h : DamageGroup) : Prop :=
  g.physical = false ∧ h.physical = true ∨ g.physical = h.physical ∧ place g.element < place h.element

instance (g h : DamageGroup) : Decidable (Before g h) := inferInstanceAs (Decidable (_ ∨ _))

theorem Before.ne {g h : DamageGroup} (hgh : Before g h) : g ≠ h := by
  rintro rfl
  rcases hgh with ⟨hf, ht⟩ | ⟨-, hlt⟩
  · simp [hf] at ht
  · exact Nat.lt_irrefl _ hlt

theorem mem_all (g : DamageGroup) : g ∈ all := by
  obtain ⟨physical, element⟩ := g
  cases physical <;> cases element <;> simp [all, Element.mem_all]

theorem pairwise_all : all.Pairwise Before := by decide

variable {α : Type} {d : Damage α} {g : DamageGroup}

theorem mem_occurring : g ∈ occurring d ↔ ∃ p ∈ d.packets, of p = g := by
  simp [occurring, mem_all]

theorem pairwise_occurring (d : Damage α) : (occurring d).Pairwise Before := pairwise_all.filter _

theorem occurring_ne_nil (h : d.packets ≠ []) : occurring d ≠ [] := by
  obtain ⟨p, hp⟩ := List.exists_mem_of_ne_nil _ h
  exact List.ne_nil_of_mem (mem_occurring.mpr ⟨p, hp, rfl⟩)

theorem isCrit_eq_true : isCrit d g = true ↔
    (if g.physical then d.weaponCrit else d.skillCrit) = true ∨ ∃ e, g.element = some e ∧ d.elementCrits e = true := by
  simp [isCrit, Option.any_eq_true]

def worth (d : Damage Rat) (g : DamageGroup) : Rat := ((d.packets.filter fun p => of p = g).map Packet.final).sum

theorem total_eq_worth (d : Damage Rat) (g : DamageGroup) : total d g = worth d g :=
  (Amount.foldl_add _ 0).trans (zero_add _)

theorem sum_worth (d : Damage Rat) : ((occurring d).map (worth d)).sum = d.worth :=
  sum_parts of Packet.final ((pairwise_occurring d).imp Before.ne) fun p hp => mem_occurring.mpr ⟨p, hp, rfl⟩

theorem worth_nonneg {d : Damage Rat} (h : ∀ p ∈ d.packets, 0 ≤ p.final) (g : DamageGroup) : 0 ≤ worth d g :=
  List.sum_nonneg (List.forall_mem_map.mpr fun p hp => h p (List.mem_of_mem_filter hp))

end DamageGroup

/-! ### Numbers -/

theorem Damage.dealt_eq_worth {d : Damage Rat} (h : Amount.leastDamage < d.dealt) : d.dealt = d.worth := by
  rw [dealt_eq_max_worth, Amount.leastDamage_eq, lt_max_iff] at h
  rw [dealt_eq_max_worth]
  exact max_eq_left (h.resolve_right (lt_irrefl _)).le

theorem Damage.packets_ne_nil {d : Damage Rat} (h : Amount.leastDamage < d.dealt) : d.packets ≠ [] := by
  intro hnil
  rw [dealt_eq_worth h, worth, hnil, Amount.leastDamage_eq] at h
  exact absurd h (by decide +kernel)

namespace Indicator

def group {α : Type} (i : Indicator α) : DamageGroup := ⟨i.physical, i.element⟩

/-- What each number has beyond the worth of its group. -/
def share (d : Damage Rat) (final : Rat) : Rat := (final - d.worth) / (DamageGroup.occurring d).length

def ofGroup (d : Damage Rat) (final : Rat) (g : DamageGroup) : Indicator Rat where
  physical := g.physical
  element := g.element
  crit := g.isCrit d
  amount := g.worth d + share d final

variable {d : Damage Rat} {final : Rat}

theorem ofDamage_of_le (h : d.dealt ≤ Amount.leastDamage) (final : Rat) : ofDamage d final = [] := if_pos h

theorem length_occurring_pos (h : Amount.leastDamage < d.dealt) : 0 < (DamageGroup.occurring d).length :=
  List.length_pos_of_ne_nil (DamageGroup.occurring_ne_nil (Damage.packets_ne_nil h))

theorem ofDamage_of_lt (h : Amount.leastDamage < d.dealt) (final : Rat) :
    ofDamage d final = (DamageGroup.occurring d).map (ofGroup d final) := by
  have hlength : max (DamageGroup.occurring d).length 1 = (DamageGroup.occurring d).length :=
    max_eq_left (length_occurring_pos h)
  rw [ofDamage, if_neg (not_le.mpr h)]
  simp only [hlength, Damage.dealt_eq_worth h, DamageGroup.total_eq_worth]
  rfl

/-- The shares add up to all that was dealt beyond the worth of the packets. -/
theorem sum_amounts (h : Amount.leastDamage < d.dealt) (final : Rat) :
    ((ofDamage d final).map Indicator.amount).sum = final := by
  have hlength : ((DamageGroup.occurring d).length : Rat) ≠ 0 := Nat.cast_ne_zero.mpr (length_occurring_pos h).ne'
  rw [ofDamage_of_lt h, List.map_map]
  calc ((DamageGroup.occurring d).map (Indicator.amount ∘ ofGroup d final)).sum
      = ((DamageGroup.occurring d).map fun g => g.worth d + share d final).sum := rfl
    _ = d.worth + (DamageGroup.occurring d).length * share d final := by
      rw [List.sum_map_add, DamageGroup.sum_worth, List.map_const', List.sum_replicate, nsmul_eq_mul]
    _ = final := by rw [share, mul_div_cancel₀ _ hlength, add_sub_cancel]

/-- The numbers account for what was dealt. -/
structure Accounts (d : Damage Rat) (final : Rat) (is : List (Indicator Rat)) : Prop where
  occurs_iff : ∀ g, g ∈ is.map group ↔ ∃ p ∈ d.packets, DamageGroup.of p = g
  /-- So no group has two numbers. -/
  ordered : (is.map group).Pairwise DamageGroup.Before
  sum : (is.map amount).sum = final
  even : ∃ share, ∀ i ∈ is, i.amount - i.group.worth d = share
  crit_iff : ∀ i ∈ is, i.crit = true ↔
    (if i.physical then d.weaponCrit else d.skillCrit) = true ∨ ∃ e, i.element = some e ∧ d.elementCrits e = true

theorem map_group_ofGroup (gs : List DamageGroup) : (gs.map (ofGroup d final)).map group = gs := by
  rw [List.map_map]
  exact List.map_id _

/-- Whatever the packets are worth and whatever was dealt, the numbers account for it, unless the damage is not above
    the least; then there are none. -/
theorem accounts_ofDamage (h : Amount.leastDamage < d.dealt) (final : Rat) : Accounts d final (ofDamage d final) := by
  have hnumbers := ofDamage_of_lt h final
  refine ⟨fun g => ?_, ?_, sum_amounts h final, ⟨share d final, fun i hi => ?_⟩, fun i hi => ?_⟩
  · rw [hnumbers, map_group_ofGroup]
    exact DamageGroup.mem_occurring
  · rw [hnumbers, map_group_ofGroup]
    exact DamageGroup.pairwise_occurring d
  · rw [hnumbers] at hi
    obtain ⟨g, -, rfl⟩ := List.mem_map.mp hi
    exact add_sub_cancel_left _ _
  · rw [hnumbers] at hi
    obtain ⟨g, -, rfl⟩ := List.mem_map.mp hi
    exact DamageGroup.isCrit_eq_true

/-- Where just its own damage was dealt, each number is what its group is worth. -/
theorem amount_eq_worth {i : Indicator Rat} (hi : i ∈ ofDamage d d.dealt) : i.amount = i.group.worth d := by
  by_cases h : Amount.leastDamage < d.dealt
  · rw [ofDamage_of_lt h] at hi
    obtain ⟨g, -, rfl⟩ := List.mem_map.mp hi
    have hshare : share d d.dealt = 0 := by rw [share, Damage.dealt_eq_worth h, sub_self, zero_div]
    show g.worth d + share d d.dealt = g.worth d
    rw [hshare, add_zero]
  · rw [ofDamage_of_le (not_lt.mp h)] at hi
    exact absurd hi List.not_mem_nil

end Indicator
end Fray
