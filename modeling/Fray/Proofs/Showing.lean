import Fray.Proofs.Breakdown
import Fray.Proofs.OpenWindows
import Fray.Proofs.WrittenOnce

/-! Showing what was dealt. The damage of an attack is made by the operations on damage, whoever contributes to the
    attack and edits it until it is applied. So just what its packets are worth is written back to the blow, and the
    numbers that are shown on the target are those of its groups, each at its worth. Showing them changes nothing but
    what is shown. -/

namespace Fray

open Act

variable {α η : Type} [Amount α]

/-! ### Damage that was made -/

namespace Damage

/-- The damage came about by the operations on damage. -/
def IsMade (d : Damage α) : Prop := ∃ ms, d.Made ms

/-- The packet that an edit brings along, if any, came about by the operations on packets. -/
def Edit.BringsMade : Edit α → Prop
  | .addPacket p => ∃ m, p.Made m
  | .add _ _ _ | .bonus _ _ | .scale _ _ | .weaponCrit _ | .skillCrit _ | .elementCrit _ | .packet _ _ => True

variable {d e : Damage α}

theorem isMade_empty : (empty : Damage α).IsMade := ⟨[], .empty⟩

theorem isMade_new {value : α} {element : Option Element} {types : List DamageType}
    (h : Damage.new value element types = .ok d) : d.IsMade := ⟨[0], .new h⟩

theorem IsMade.merge (hd : d.IsMade) (he : e.IsMade) : (d.merge e).IsMade := by
  obtain ⟨ms, hd⟩ := hd
  obtain ⟨ns, he⟩ := he
  exact ⟨ms ++ ns, hd.merge he⟩

theorem IsMade.edit (hd : d.IsMade) {c : Edit α} (hc : c.BringsMade) (h : d.edit c = .ok e) : e.IsMade := by
  obtain ⟨ms, hd⟩ := hd
  cases c with
  | add value element types => exact ⟨_, hd.add h⟩
  | addPacket p =>
    obtain ⟨m, hp⟩ := hc
    exact ⟨_, hd.addPacket hp h⟩
  | bonus scope value => exact ⟨_, hd.modify (m := .bonus value) h⟩
  | scale scope coefficient => exact ⟨_, hd.modify (m := .scale coefficient) h⟩
  | weaponCrit crit | skillCrit crit | elementCrit x =>
    obtain ⟨-, rfl⟩ := edit_eq_ok.mp h
    exact ⟨_, hd.crits _ _ _⟩
  | packet index c => exact ⟨_, hd.packet h⟩

theorem IsMade.final_nonneg {d : Damage Rat} (h : d.IsMade) : ∀ p ∈ d.packets, 0 ≤ p.final :=
  h.elim fun _ h => h.final_nonneg

end Damage

namespace Windows

/-- The damage of every attack was made. -/
def Made (w : Windows α) : Prop := ∀ r, (w.attack r).damage.IsMade

variable {w : Windows α}

theorem made_start : ({} : Windows α).Made := fun _ => Damage.isMade_empty

theorem Made.expire (h : w.Made) (t : Nat) : (w.expire t).Made := h

theorem Made.remove (h : w.Made) (k : WindowKey) : (w.remove k).Made := h

theorem Made.close (h : w.Made) (k : WindowKey) (s : AttackRef) : (w.close k s).Made := fun r => by
  rw [attack_close]
  exact h r

theorem Made.update (h : w.Made) (s : AttackRef) {f : Attack α → Attack α}
    (hf : ∀ a : Attack α, a.damage.IsMade → (f a).damage.IsMade) : (w.update s f).Made := by
  intro r
  by_cases hr : r = s
  · subst hr
    by_cases hlt : r < w.attacks.size
    · rw [attack_update w hlt]
      exact hf _ (h r)
    · have hdefault : (w.update r f).attack r = default := by simp [attack, Windows.update, hlt]
      rw [hdefault]
      exact Damage.isMade_empty
  · rw [attack_update_of_ne w hr]
    exact h r

theorem Made.register (h : w.Made) (k : WindowKey) {a : Attack α} (ha : a.damage.IsMade) : (w.register k a).2.Made := by
  cases hk : w.find? k with
  | some s =>
    rw [register_of_some hk]
    exact (h.expire k.tick).update s fun b hb => hb.merge ha
  | none =>
    intro r
    rw [register_of_none hk]
    by_cases hr : r = w.attacks.size
    · simpa [attack, hr] using ha
    · simpa [attack, Array.getElem?_push, hr] using h r

end Windows

namespace World

/-- The damage of every attack was made, and so is that which discoverers come up with. -/
structure WellMade (w : World α η) : Prop where
  windows : w.windows.Made
  discoverers : ∀ discover ∈ w.discoverers, ∀ host b a, discover host b = some a → a.damage.IsMade

/-- Where damage was made, only such damage is added. -/
def Makes (w v : World α η) : Prop := w.WellMade → v.WellMade

variable {w v u w' : World α η} {b b' : Blow α} {r : AttackRef} {o : Outcome α} {cancelled : Bool}

theorem lasting_makes : Lasting (Makes (α := α) (η := η)) where
  refl _ h := h
  trans h h' hw := h' (h hw)

theorem WellMade.aside (h : w.WellMade) {windows : Windows α} (hw : windows.Made) (journal : Array (Note α)) :
    WellMade { w with windows, journal } := ⟨hw, h.discoverers⟩

theorem wellMade_start (hw : w.windows = {}) (hd : w.discoverers = []) : w.WellMade :=
  ⟨hw ▸ Windows.made_start, fun discover hmem => by simp [hd] at hmem⟩

theorem announced_makes (e : Event α) (w : World α η) : Makes w (w.announced e) := fun h => ⟨h.windows, h.discoverers⟩

theorem register_makes (k : WindowKey) {a : Attack α} (ha : a.damage.IsMade) :
    Act.Within (Makes (η := η)) (register k a) := by
  intro w hw
  obtain ⟨j, hj⟩ := after_register k a w
  rw [hj]
  exact hw.aside (hw.windows.register k ha) j

theorem expire_makes (t : Nat) : Act.Within (Makes (α := α) (η := η)) (expire t) := by
  intro w hw
  obtain ⟨j, hj⟩ := after_expire t w
  rw [hj]
  exact hw.aside (hw.windows.expire t) j

theorem editAttack_makes (r : AttackRef) {c : Damage.Edit α} (hc : c.BringsMade) :
    Act.Within (Makes (η := η)) (editAttack r c).run := by
  intro w hw
  cases hd : (w.windows.attack r).damage.edit c with
  | error fault =>
    rw [after_editAttack_of_error hd]
    exact hw
  | ok d =>
    rw [after_editAttack_of_ok hd]
    exact hw.aside (hw.windows.update r fun _ _ => (hw.windows r).edit hc hd) w.journal

variable [Host η α]

theorem attack_makes (wielder : Wielder) (target : EntityId) (value : α) (element : Option Element)
    (types : List DamageType) : Act.Within (Makes (η := η)) (attack wielder target value element types).run := by
  intro w
  cases hd : Damage.new value element types with
  | error fault =>
    rw [after_attack_of_error wielder target hd]
    exact lasting_makes.refl w
  | ok d =>
    rw [after_attack_of_ok wielder target hd]
    exact register_makes _ (Damage.isMade_new hd) w

/-! ### Resolutions -/

theorem WellMade.behind (h : w.WellMade) {a : Attack α} (ha : w.behind b = .ok a) : a.damage.IsMade := by
  unfold World.behind at ha
  split at ha
  · cases ha
    exact h.windows _
  · split at ha
    · next a' hfound =>
      cases ha
      obtain ⟨discover, hmem, hfound⟩ := List.exists_of_findSome?_eq_some hfound
      exact h.discoverers discover hmem _ _ _ hfound
    · obtain ⟨⟨types, hnew⟩, -⟩ := discover_eq_ok ha
      exact Damage.isMade_new hnew

theorem Located.makes (h : Located w b r v) : Makes w v := by
  intro hw
  cases h with
  | known h => exact hw.aside (hw.windows.expire b.tick) _
  | discovered h ha => exact hw.aside (hw.windows.register b.key (hw.behind ha)) _

variable {l : Listeners α η} (hl : l.Within Makes)
include hl

theorem Shown.makes (h : Shown l b w r v cancelled u) : Makes w u := by
  have hasked : Makes v (after (l.askAttack r) v) :=
    lasting_makes.trans (announced_makes _ v) (l.askAttack_within lasting_makes hl r v)
  intro hw
  have hclosed := hasked (h.sought.located.makes hw)
  rw [h.closed]
  exact hclosed.aside (hclosed.windows.close b.key r) _

theorem Exit.makes (h : Exit l b w o b' w') : Makes w w' := by
  intro hw
  cases h with
  | ignored hz => exact hw
  | withdrawn hz hc => exact hw.aside ((hw.windows.expire b.tick).remove b.key) _
  | baseless hz hc hb => exact hw.aside (hw.windows.expire b.tick) _
  | denied hz hc hs hd =>
    have hlocated := hs.located.makes hw
    exact hlocated.aside (hlocated.windows.close _ _) _
  | stopped hs => exact hs.makes hl hw
  | spent hs hfinal =>
    have hshown := hs.makes hl hw
    exact hshown.aside hshown.windows _
  | applied hs hfinal ha hk =>
    exact conclude_within lasting_makes (fun e w _ => announced_makes e w) hl b _ _ _ (hs.makes hl hw)

theorem resolve_makes (b : Blow α) : Act.Within Makes (resolve l b) := fun w => (resolve_exit l b w).makes hl

/-- What a deed brings along was made. -/
def Deed.BringsMade : Deed α η → Prop
  | .register _ a => a.damage.IsMade
  | .elsewhere f => ∀ w, Makes w (f w)
  | .attack _ _ _ _ _ | .expire _ | .unregister _ | .resolve _ => True

theorem Deed.makes {d : Deed α η} (hd : d.BringsMade) (w : World α η) : Makes w (d.leaves l w) := by
  cases d with
  | attack wielder target value element types => exact attack_makes wielder target value element types w
  | register k a => exact register_makes k hd w
  | expire t => exact expire_makes t w
  | unregister k => exact fun hw => hw.aside (hw.windows.remove k) w.journal
  | resolve b => exact resolve_makes hl b w
  | elsewhere f => exact hd w

/-- However long the engine runs, all damage in it was made. -/
theorem foldl_leaves_makes {ds : List (Deed α η)} (hds : ∀ d ∈ ds, d.BringsMade) (w : World α η) :
    Makes w (ds.foldl (Deed.leaves l) w) := by
  induction ds generalizing w with
  | nil => exact lasting_makes.refl w
  | cons d ds ih =>
    obtain ⟨hd, hds⟩ := List.forall_mem_cons.mp hds
    exact lasting_makes.trans (Deed.makes hl hd w) (ih hds _)

omit hl

/-! ### Showing -/

/-- From the one world to the other only the host and the journal change. -/
def Beside (w v : World α η) : Prop := ∃ host journal, v = { w with host, journal }

omit [Amount α] [Host η α] in
theorem lasting_beside : Lasting (Beside (α := α) (η := η)) where
  refl w := ⟨w.host, w.journal, rfl⟩
  trans h h' := by
    obtain ⟨host, journal, rfl⟩ := h
    obtain ⟨host', journal', rfl⟩ := h'
    exact ⟨host', journal', rfl⟩

end World

/-- What is shown at the turn of an ear, where `xs` is to be shown. -/
def Ear.shows {β : Type} (xs : List β) : Ear → List β
  | .indicators => xs
  | .listener _ => []

namespace Listeners

variable (l : Listeners α η)

/-- Who shows numbers does nothing else. -/
theorem hear_indicators_within {R : World α η → World α η → Prop} (hR : Lasting R)
    (hd : ∀ t i, Act.Within R (l.display t i)) (e : Event α) (c : Bool) : Act.Within R (l.hear e c .indicators) := by
  cases e with
  | finalized a final => exact hR.bind (hR.forM fun i _ => hd a.target i) fun _ => hR.pure c
  | attack | kill | preCast | postCast | castStart | castEnd => exact hR.pure c

theorem answer_hear_indicators (e : Event α) (c : Bool) (w : World α η) : answer (l.hear e c .indicators) w = c := by
  cases e <;> rfl

/-- Whoever keeps a record of what is shown has on record the numbers of an attack once it was told of as applied, all
    of them on its target, as often as there are those who show numbers. -/
theorem dispatch_shows {shown : η → List (EntityId × Indicator α)}
    (hd : ∀ t i w, shown (after (l.display t i) w).host = shown w.host ++ [(t, i)]) {a : Attack α} {final : α}
    (hl : ∀ id w, shown (after (l.finalized id a final) w).host = shown w.host) (w : World α η) :
    shown (after (l.dispatch (.finalized a final)) w).host = shown w.host ++
      w.bus.ears.flatMap (Ear.shows ((Indicator.ofDamage a.damage final).map fun i => (a.target, i))) := by
  refine l.dispatch_appends (fun c ear w => ?_) w
  cases ear with
  | listener id => exact (hl id w).trans (List.append_nil _).symm
  | indicators =>
    have hall := forM_appends (fun w => shown w.host) (fun i w => hd a.target i w) (Indicator.ofDamage a.damage final) w
    rw [← List.map_eq_flatMap] at hall
    exact hall

end Listeners

namespace World

/-- A blow was applied with `x`. This is what the attack `a` dealt in the end, it is written to the blow, and it is the
    last that is told of, in the world `v`; and its numbers are what is shown. -/
structure Shows [Host η Rat] (l : Listeners Rat η) (b : Blow Rat) (w : World Rat η) (x : Rat) (a : Attack Rat)
    (v : World Rat η) : Prop where
  finalized : ∃ r, FinalizedAs l b w r a
  dealt : a.damage.dealt = x
  written : (answer (resolve l b) w).2.final = some x
  told : (∃ es, Sends l w es v) ∧ after (resolve l b) w = after (l.dispatch (.finalized a x)) v
  shown : ∀ shown : η → List (EntityId × Indicator Rat),
    (∀ t i w, shown (after (l.display t i) w).host = shown w.host ++ [(t, i)]) →
    (∀ id w, shown (after (l.finalized id a x) w).host = shown w.host) →
    shown (after (resolve l b) w).host = shown v.host ++
      v.bus.ears.flatMap (Ear.shows ((Indicator.ofDamage a.damage x).map fun i => (a.target, i)))
  worth : ∀ i ∈ Indicator.ofDamage a.damage x, i.amount = i.group.worth a.damage ∧ 0 ≤ i.amount
  sum : Amount.leastDamage < x → ((Indicator.ofDamage a.damage x).map Indicator.amount).sum = x

/-- The numbers account for all that was dealt, of any damage and of every attack that is applied in the world. -/
structure Numbered [Host η Rat] (l : Listeners Rat η) (w : World Rat η) : Prop where
  accounts : ∀ (d : Damage Rat) final, Amount.leastDamage < d.dealt →
    Indicator.Accounts d final (Indicator.ofDamage d final)
  least : ∀ (d : Damage Rat) final, d.dealt ≤ Amount.leastDamage → Indicator.ofDamage d final = []
  shows : ∀ b x killed, (answer (resolve l b) w).1 = .applied x killed → ∃ a v, Shows l b w x a v
  /-- Where showing a number changes nothing but the host and the journal, showing all of them does not; nor is an event
      cancelled by it. -/
  beside : (∀ t i, Act.Within Beside (l.display t i)) → ∀ e c v,
    Beside v (after (l.hear e c .indicators) v) ∧ answer (l.hear e c .indicators) v = c

variable [Host η Rat] {l : Listeners Rat η} (hl : l.Within Makes) {w : World Rat η}
include hl

theorem WellMade.shows (hw : w.WellMade) {b : Blow Rat} {x : Rat} {killed : Bool}
    (h : (answer (resolve l b) w).1 = .applied x killed) : ∃ a v, Shows l b w x a v := by
  have hexit := resolve_exit l b w
  rw [h] at hexit
  generalize hb' : (answer (resolve l b) w).2 = b' at hexit
  generalize hw' : after (resolve l b) w = w' at hexit
  cases hexit with
  | @applied r v u a killer hs hfinal ha hk =>
    have hmade : a.damage.IsMade := ha ▸ (hs.makes hl hw).windows r
    obtain ⟨t, hsends, ht⟩ : ∃ t, (∃ es, Sends l w es t) ∧
        after (conclude l b a killer) u = after (l.dispatch (.finalized a a.damage.dealt)) t := by
      cases killer with
      | none => exact ⟨u, ⟨_, hs.sends⟩, rfl⟩
      | some e => exact ⟨after (l.tellKill e b.target a) u, ⟨_, hs.sends.event (.kill e b.target a)⟩, rfl⟩
    refine ⟨a, t, ⟨r, v, u, hs, ha⟩, rfl, by rw [hb'], ⟨hsends, hw'.trans ht⟩, fun shown hd hl => ?_, fun i hi => ?_,
      fun h => Indicator.sum_amounts h _⟩
    · rw [hw', ht]
      exact l.dispatch_shows hd hl t
    · have hworth := Indicator.amount_eq_worth hi
      exact ⟨hworth, hworth ▸ DamageGroup.worth_nonneg hmade.final_nonneg _⟩

/-- Wherever the engine comes to, the numbers account for all that is dealt: for each attack that is applied, they are
    what its groups are worth, none is negative, and they add up to what is written to the blow. -/
theorem numbered_of_run (hw : w.WellMade) {ds : List (Deed Rat η)} (hds : ∀ d ∈ ds, d.BringsMade) :
    Numbered l (ds.foldl (Deed.leaves l) w) where
  accounts _ final h := Indicator.accounts_ofDamage h final
  least _ final h := Indicator.ofDamage_of_le h final
  shows _ _ _ h := WellMade.shows hl (foldl_leaves_makes hl hds w hw) h
  beside hd e c v := ⟨l.hear_indicators_within lasting_beside hd e c v, l.answer_hear_indicators e c v⟩

omit hl

/-! ### A duel that is watched -/

theorem second_makes : second.Within Makes :=
  { Listeners.silent_within lasting_makes with
    attack := fun _ _ cancelled => by
      refine lasting_makes.bind (fun w => ?_) fun _ => lasting_makes.pure cancelled
      exact attack_makes (α := Rat) duelist stroke.target 2 none [.physical] w }

def watched : World Rat (Arena Rat) := { seconded with bus := seconded.bus.register .indicators }

/-- One contribution is taken out again; a burning one follows, and is made to burn twice as hot. -/
def kindling : List (Deed Rat (Arena Rat)) :=
  [.attack duelist stroke.target 5 none [.physical], .unregister stroke.key,
    .attack duelist stroke.target 1 (some .fire) [.magic],
    .elsewhere fun w => after (editAttack 1 (.bonus (.element (some .fire)) 1)).run w]

theorem numbered_kindling : second.Within Makes ∧ watched.WellMade ∧ (∀ d ∈ kindling, d.BringsMade) ∧
    Numbered second (kindling.foldl (Deed.leaves second) watched) ∧
    (answer (resolve second stroke) (kindling.foldl (Deed.leaves second) watched)).1 = .applied 4 false := by
  have hw : watched.WellMade := wellMade_start rfl rfl
  have hds : ∀ d ∈ kindling, d.BringsMade := by
    simp only [kindling, List.forall_mem_cons]
    exact ⟨trivial, trivial, trivial, editAttack_makes 1 trivial, by simp⟩
  exact ⟨second_makes, hw, hds, numbered_of_run second_makes hw hds, by decide +kernel⟩

end World
end Fray
