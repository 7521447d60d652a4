import Fray.Proofs.Lifecycle

/-! What the release of a combatant leaves behind. A handle of a stat outlives its name; the release finds it as long
    as nobody cleared the stats since the handle was taken. -/

namespace Fray

open Roster (Move)

namespace Combatant

/-- What can be done to a combatant through its handle, or to one of its stats through the handle of that. -/
inductive Op (α : Type) where
  | demand (name : String)
  | stat (r : StatRef) (op : Collection.Op (StatModifier α) (String → Bool))
  | register (m : StatModifier α)
  | unregister (name : String) (id : ModifierId)
  | removeIf (condition : String → Bool)
  | clearStats
  | skillModifiers (op : Collection.Op (SkillModifier α) String)
  | putCooldown (skill : SkillId) (now duration : Nat)
  | testCooldown (skill : SkillId) (now : Nat)
  | clearCooldowns
  | startCast (skill : SkillId)
  | stopCast (skill : SkillId)
  | clearCasts

variable {α : Type}

def obey (o : Op α) (c : Combatant α) : Combatant α :=
  match o with
  | .demand name => { c with stats := (c.stats.demand name).2 }
  | .stat r op => { c with stats := c.stats.update r fun stat => (Stat.collection.obey op stat).2 }
  | .register m => { c with stats := c.stats.register m }
  | .unregister name id => { c with stats := c.stats.unregister name id }
  | .removeIf condition => { c with stats := (c.stats.removeIf condition).2 }
  | .clearStats => { c with stats := c.stats.clear }
  | .skillModifiers op => { c with skillModifiers := (ModifierMap.collection.obey op c.skillModifiers).2 }
  | .putCooldown skill now duration => { c with cooldowns := c.cooldowns.put skill now duration }
  | .testCooldown skill now => { c with cooldowns := (c.cooldowns.test skill now).2 }
  | .clearCooldowns => { c with cooldowns := c.cooldowns.clear }
  | .startCast skill => { c with casting := (c.casting.start skill).2 }
  | .stopCast skill => { c with casting := (c.casting.stop skill).2 }
  | .clearCasts => { c with casting := c.casting.clear }

theorem tidy_obey (o : Op α) {c : Combatant α} (h : c.stats.Tidy) : (obey o c).stats.Tidy := by
  cases o with
  | demand name => exact h.demand name
  | stat r op => exact h.of_same rfl (Stats.size_update ..)
  | register m => exact h.register m
  | unregister name id => exact h.of_same (c.stats.unregister_same name id).1 (c.stats.unregister_same name id).2
  | removeIf condition => exact h.of_same (c.stats.removeIf_same condition).1 (c.stats.removeIf_same condition).2
  | clearStats => exact c.stats.tidy_clear
  | _ => exact h

/-- Only clearing the stats drops a name. -/
theorem ref?_obey {o : Op α} (ho : o ≠ .clearStats) {c : Combatant α} {name : String} {r : StatRef}
    (hr : c.stats.ref? name = some r) : (obey o c).stats.ref? name = some r := by
  cases o with
  | demand other => exact Stats.ref?_demand_of_some hr other
  | register m => exact Stats.ref?_demand_of_some hr m.stat
  | unregister other id =>
    rw [Stats.ref?, obey, (c.stats.unregister_same other id).1]
    exact hr
  | removeIf condition =>
    rw [Stats.ref?, obey, (c.stats.removeIf_same condition).1]
    exact hr
  | clearStats => exact absurd rfl ho
  | _ => exact hr

/-- The moves of a roster of combatants. -/
abbrev Story (α : Type) := List (Move (Op α))

theorem tidy_run (ms : Story α) (s : StateRef) : ((Roster.run obey ms).state s).stats.Tidy :=
  Roster.state_run (P := fun c : Combatant α => c.stats.Tidy) (.nil _) (fun o _ h => tidy_obey o h)
    (fun c _ => c.stats.tidy_clear) ms s

/-- A handle of a stat that was taken by name, and whose stat was not dropped since by clearing the stats. -/
def Held (ms : Story α) (s : StateRef) (r : StatRef) : Prop :=
  ∃ pre mid name, ms = pre ++ mid ∧ ((Roster.run obey pre).state s).stats.ref? name = some r ∧
    .act s .clearStats ∉ mid

/-- Whoever asks for a stat is given a handle that is held. -/
theorem held_of_demand (ms : Story α) {s : StateRef} (hs : s < (Roster.run obey ms).states.size) (name : String) :
    Held (ms ++ [.act s (.demand name)]) s (((Roster.run obey ms).state s).stats.demand name).1 := by
  refine ⟨ms ++ [.act s (.demand name)], [], name, by simp, ?_, by simp⟩
  rw [Roster.run_concat, Roster.move, Roster.state_update, if_pos ⟨rfl, hs⟩]
  exact Stats.ref?_demand ..

/-- While its owner is connected, a handle that is held stands under a name. -/
theorem Held.ref? {ms : Story α} {s : StateRef} {r : StatRef} (h : Held ms s r) {e : EntityId}
    (he : (Roster.run obey ms).get? e = some s) : ∃ name, ((Roster.run obey ms).state s).stats.ref? name = some r := by
  obtain ⟨pre, mid, name, rfl, hr, hmid⟩ := h
  refine ⟨name, ?_⟩
  have hpre : s < (Roster.run obey pre).states.size := Nat.lt_of_not_le fun hsize => by
    rw [Roster.state_of_size_le hsize] at hr
    cases hr
  induction mid using List.reverseRecOn with
  | nil =>
    rw [List.append_nil]
    exact hr
  | append_singleton mid m ih =>
    -- The owner had the state before this move too, so a disconnection was that of someone else.
    rw [← List.append_assoc, Roster.run_concat] at he ⊢
    have hbefore := Roster.get?_of_move (Nat.lt_of_lt_of_le hpre (Roster.size_le_run pre mid)) he
    have ih := ih hbefore fun h => hmid (List.mem_append_left [m] h)
    cases m with
    | connect j =>
      rw [Roster.move, Roster.state_connect]
      exact ih
    | disconnect j =>
      have hj : (Roster.run obey (pre ++ mid)).get? j ≠ some s := fun hj => by
        have hej := Numbered.key_unique (Roster.tidy_run (pre ++ mid)) hbefore hj
        rw [Roster.move, Roster.get?_disconnect, if_pos hej] at he
        cases he
      rw [Roster.move, (Roster.tidy_run _).state_disconnect, if_neg hj]
      exact ih
    | act t o =>
      rw [Roster.move, Roster.state_update]
      split
      · next hst =>
        have ho : o ≠ .clearStats := fun ho => hmid (by simp [ho, hst.1])
        exact ref?_obey ho ih
      · exact ih

/-! ### After the release -/

variable [Amount α]

theorem aggregate_nil {μ : Type} [IsModifier μ α] (base : α) (counts : μ → Bool) (worth : μ → α) :
    aggregate base [] counts worth = base := rfl

/-- What is left of a combatant: `a` before and `b` after its release, seen through the handles of stats `held`. -/
structure Emptied (held : StatRef → Prop) (a b : Combatant α) : Prop where
  bare : ∀ r, held r → ∀ id, (b.stats.stat r).get? id = none
  base : ∀ r, held r → ∀ (base : α) counts worth, (b.stats.stat r).totalWith base counts worth = base
  totals : ∀ name (base : α), b.stats.total name base = base
  unmodified : ∀ id, b.skillModifiers.get? id = none
  values : ∀ skill (base : α) parameter, b.skillModifiers.parameterValue skill base parameter = base
  ready : ∀ skill now, b.cooldowns.remaining skill now = 0 ∧ (b.cooldowns.test skill now).1 = true
  idle : b.casting.isEmpty = true ∧ ∀ skill, b.casting.contains skill = false
  /-- Every entry of a stat was released, once. -/
  stats : ∀ r, held r → ∃ out, (b.stats.stat r).released = (a.stats.stat r).released ++ out ∧
    out.Perm (a.stats.stat r).entries
  modifiers : ∃ out, b.skillModifiers.released = a.skillModifiers.released ++ out ∧
    out.Perm a.skillModifiers.entries
  /-- A stat without a name is out of reach. -/
  dropped : ∀ r, r ∉ a.stats.named.map Prod.snd → b.stats.stat r = a.stats.stat r

theorem emptied_release {c : Combatant α} (h : c.stats.Tidy) {held : StatRef → Prop}
    (hheld : ∀ r, held r → ∃ name, c.stats.ref? name = some r) : Emptied held c (EntityState.release c) := by
  have cleared : ∀ r, held r → c.stats.clear.stat r = (c.stats.stat r).clear := fun r hr => by
    obtain ⟨name, hname⟩ := hheld r hr
    rw [h.stat_clear, if_pos (List.mem_map.mpr ⟨(name, r), mem_of_lookup hname, rfl⟩)]
  refine ⟨fun r hr id => ?_, fun r hr base counts worth => ?_, fun name base => ?_, fun id => rfl,
    fun skill base parameter => rfl, fun skill now => ⟨Nat.zero_sub now, rfl⟩, ⟨rfl, fun skill => rfl⟩,
    fun r hr => ?_, ⟨_, rfl, .refl _⟩, fun r hr => ?_⟩
  · show (c.stats.clear.stat r).get? id = none
    rw [cleared r hr, Stat.clear_eq]
    rfl
  · show (c.stats.clear.stat r).totalWith base counts worth = base
    rw [cleared r hr, Stat.clear_eq, Stat.totalWith, aggregate_nil]
  · show c.stats.clear.total name base = base
    rw [Stats.total, Stats.get?, Stats.ref?, Stats.named_clear]
    rfl
  · refine ⟨(c.stats.stat r).entries, ?_, .refl _⟩
    show (c.stats.clear.stat r).released = _
    rw [cleared r hr, Stat.clear_eq]
  · exact (h.stat_clear r).trans (if_neg hr)

/-- The life of a combatant. -/
structure Lifecycle (α : Type) [Amount α] : Prop where
  lived : Roster.Lived (obey (α := α))
  held : ∀ (ms : Story α) s, s < (Roster.run obey ms).states.size → ∀ name,
    Held (ms ++ [.act s (.demand name)]) s (((Roster.run obey ms).state s).stats.demand name).1
  /-- Right after a disconnection nothing is left of the state. -/
  emptied : ∀ (ms : Story α) e s, (Roster.run obey ms).get? e = some s →
    Emptied (Held ms s) ((Roster.run obey ms).state s) (((Roster.run obey ms).disconnect e).2.state s)

theorem lifecycle (α : Type) [Amount α] : Lifecycle α where
  lived := Roster.lived obey
  held ms _ hs name := held_of_demand ms hs name
  emptied ms e s he := by
    rw [(Roster.tidy_run ms).state_disconnect, if_pos he]
    exact emptied_release (tidy_run ms s) fun r hr => hr.ref? he

end Combatant

end Fray
