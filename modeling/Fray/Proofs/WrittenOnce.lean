import Fray.Proofs.Felled
import Fray.Proofs.Delivery

/-! The final damage of a blow is written once, by a resolution or by the host, in whatever order and however often they
    try. A resolution that comes too late gives its attack up, and no more is told of it than that it was about to be
    applied. -/

namespace Fray

open Act

variable {α η : Type}

theorem Windows.find?_close_ne (w : Windows α) (k : WindowKey) (r : AttackRef) : (w.close k r).find? k ≠ some r := by
  unfold Windows.close
  split
  · simp [find?_remove]
  · assumption

/-- The damage that was applied. -/
def Outcome.applied? : Outcome α → Option α
  | .applied damage _ => some damage
  | .ignored | .cancelled | .denied => none

variable [Amount α]

namespace World

/-! ### What a resolution sends -/

/-- From one world to another events are sent, one after the other; but for what is done by those who hear of them, only
    the windows and the journal change. -/
inductive Sends (l : Listeners α η) (w : World α η) : List (Event α) → World α η → Prop
  | start : Sends l w [] w
  | aside {es : List (Event α)} {v : World α η} (h : Sends l w es v) (windows : Windows α) (journal : Array (Note α)) :
    Sends l w es { v with windows, journal }
  | event {es : List (Event α)} {v : World α η} (h : Sends l w es v) (e : Event α) :
    Sends l w (es ++ [e]) (after (l.dispatch e) v)

variable {l : Listeners α η} {w v u w' : World α η} {b b' : Blow α} {r : AttackRef} {c : Bool} {o : Outcome α}

theorem Sends.conclude {es : List (Event α)} (h : Sends l w es v) (b : Blow α) (a : Attack α) (killer : Option EntityId) :
    Sends l w (es ++ ((killer.toList.map fun e => .kill e b.target a) ++ [.finalized a a.damage.dealt]))
      (after (conclude l b a killer) v) := by
  cases killer with
  | none => exact h.event (.finalized a a.damage.dealt)
  | some e =>
    have hall := (h.event (.kill e b.target a)).event (.finalized a a.damage.dealt)
    rw [List.append_assoc] at hall
    exact hall

variable [Host η α]

theorem Located.sends (h : Located w b r v) : Sends l w [] v := by
  cases h with
  | known h => exact .aside .start _ _
  | discovered h ha => exact .aside .start _ _

theorem Shown.sends (h : Shown l b w r v c u) : Sends l w [.attack r] u := by
  rw [h.closed]
  exact .aside (.event h.sought.located.sends (.attack r)) _ _

/-- An applied attack is told of as applied, and maybe of a kill; no other is. -/
theorem Exit.sends (h : Exit l b w o b' w') : ∃ es, Sends l w es w' ∧
    (es.filterMap Event.finalized?).map (·.damage.dealt) = o.applied?.toList ∧
    (es.filterMap Event.killed?).length ≤ o.applied?.toList.length := by
  cases h with
  | ignored hz => exact ⟨[], .start, rfl, Nat.le_refl _⟩
  | withdrawn hz hc => exact ⟨[], .aside .start _ _, rfl, Nat.le_refl _⟩
  | baseless hz hc hb => exact ⟨[], .aside .start _ _, rfl, Nat.le_refl _⟩
  | denied hz hc hs hd => exact ⟨[], .aside hs.located.sends _ _, rfl, Nat.le_refl _⟩
  | stopped hs => exact ⟨_, hs.sends, rfl, Nat.le_refl _⟩
  | @spent r v u previous j hs hw => exact ⟨_, .aside hs.sends u.windows j, rfl, Nat.le_refl _⟩
  | @applied r v u a killer hs hw ha hk =>
    refine ⟨_, hs.sends.conclude b a killer, ?_, ?_⟩
    · cases killer <;> rfl
    · cases killer with
      | none => exact Nat.zero_le _
      | some e => exact Nat.le_refl _

/-- What a resolution applies is what it writes, on a blow on which nothing was written before. -/
theorem Exit.final (h : Exit l b w o b' w') : b'.final.toList = b.final.toList ++ o.applied?.toList := by
  cases h with
  | ignored | withdrawn | baseless | denied | stopped | spent => exact (List.append_nil _).symm
  | applied hs hw ha hk => simp [hw, Outcome.applied?]

/-- A resolution comes too late: the attack `r` was shown and not cancelled, but the damage `d` stands on the blow. -/
structure Refused (l : Listeners α η) (b : Blow α) (w : World α η) (r : AttackRef) (d : α) : Prop where
  answers : (answer (resolve l b) w).1 = .cancelled
  keeps : (answer (resolve l b) w).2 = b.cancel ∧ b.cancel.final = some d
  closes : (after (resolve l b) w).windows.find? b.key ≠ some r
  /-- Neither a kill nor an applied attack is told of. -/
  sends : Sends l w [.attack r] (after (resolve l b) w)

theorem Shown.refused (h : Shown l b w r v false u) {d : α} (hd : b.final = some d) : Refused l b w r d := by
  have hexit := resolve_exit l b w
  generalize ho : (answer (resolve l b) w).1 = o at hexit
  generalize hb' : (answer (resolve l b) w).2 = b' at hexit
  generalize hw' : after (resolve l b) w = w' at hexit
  cases hexit with
  | ignored hz => exact absurd hz h.deals
  | withdrawn hz hc => simp [h.stands] at hc
  | baseless hz hc hb => simp [h.sought.located.behind_eq] at hb
  | denied hz hc hs hdenied =>
    obtain ⟨rfl, rfl⟩ := h.sought.unique hs
    simp [h.permitted] at hdenied
  | stopped hs =>
    obtain ⟨-, -, hc, -⟩ := h.unique hs
    cases hc
  | applied hs hw ha hk => simp [hd] at hw
  | @spent r' v' u' previous j hs hw =>
    obtain ⟨rfl, rfl, -, rfl⟩ := h.unique hs
    refine ⟨ho, ⟨hb', hd⟩, ?_, ?_⟩
    · rw [hw']
      show u.windows.find? b.key ≠ some r
      rw [h.closed]
      exact Windows.find?_close_ne _ _ _
    · rw [hw']
      exact .aside h.sends u.windows j

/-! ### What is done with a blow -/

/-- What the host may do with a blow; and anything at all that the engine may do meanwhile. -/
inductive Use (α η : Type)
  | resolve
  | cancel
  | write (damage : α)
  | elsewhere (f : World α η → World α η)

namespace Use

def leaves (l : Listeners α η) : Use α η → Blow α × World α η → Blow α × World α η
  | .resolve, (b, w) => ((answer (World.resolve l b) w).2, after (World.resolve l b) w)
  | .cancel, (b, w) => (b.cancel, w)
  | .write d, (b, w) => ((b.write d).toOption.getD b, w)
  | .elsewhere f, (b, w) => (b, f w)

/-- The damage that a resolution answers as applied. -/
def applies (l : Listeners α η) : Use α η → Blow α × World α η → Option α
  | .resolve, (b, w) => (answer (World.resolve l b) w).1.applied?
  | .cancel, _ | .write _, _ | .elsewhere _, _ => none

/-- The damage that is written, by a resolution or by a write that is not refused. -/
def writes (l : Listeners α η) : Use α η → Blow α × World α η → Option α
  | .write d, (b, _) => (b.write d).toOption.map fun _ => d
  | .resolve, s => applies l .resolve s
  | .cancel, _ | .elsewhere _, _ => none

/-- The events that a use sends. -/
def Tells (l : Listeners α η) : Use α η → Blow α × World α η → List (Event α) → Prop
  | .resolve, (b, w), es => Sends l w es (after (World.resolve l b) w)
  | .cancel, _, es | .write _, _, es | .elsewhere _, _, es => es = []

variable (u : Use α η) (s : Blow α × World α η)

/-- What stands on a blow after a use is what stood there and what was written. -/
theorem final_leaves : (u.leaves l s).1.final.toList = s.1.final.toList ++ (u.writes l s).toList := by
  obtain ⟨b, w⟩ := s
  cases u with
  | resolve => exact (resolve_exit l b w).final
  | cancel => exact (List.append_nil _).symm
  | elsewhere f => exact (List.append_nil _).symm
  | write d =>
    cases hb : b.final with
    | none => simp [leaves, writes, Blow.write, hb, Except.toOption]
    | some previous => simp [leaves, writes, Blow.write, hb, Except.toOption]

theorem writes_of_applies {d : α} (h : u.applies l s = some d) : u.writes l s = some d := by
  cases u with
  | resolve => exact h
  | cancel | write | elsewhere => cases h

theorem exists_tells : ∃ es, u.Tells l s es ∧
    (es.filterMap Event.finalized?).map (·.damage.dealt) = (u.applies l s).toList ∧
    (es.filterMap Event.killed?).length ≤ (u.applies l s).toList.length := by
  cases u with
  | resolve => exact (resolve_exit l s.1 s.2).sends
  | cancel | write | elsewhere => exact ⟨[], rfl, rfl, Nat.le_refl _⟩

end Use

/-- What is left after some uses of a blow. -/
def left (l : Listeners α η) (us : List (Use α η)) (s : Blow α × World α η) : Blow α × World α η :=
  us.foldl (fun s u => u.leaves l s) s

/-- Something of every use, one after the other. -/
def each {β : Type} (l : Listeners α η) (of : Use α η → Blow α × World α η → Option β) :
    List (Use α η) → Blow α × World α η → List β
  | [], _ => []
  | u :: us, s => (of u s).toList ++ each l of us (u.leaves l s)

/-- The events that the uses of a blow send. -/
def Tell (l : Listeners α η) : List (Use α η) → Blow α × World α η → List (Event α) → Prop
  | [], _, es => es = []
  | u :: us, s, es => ∃ now later, es = now ++ later ∧ u.Tells l s now ∧ Tell l us (u.leaves l s) later

variable (l) (us : List (Use α η)) (s : Blow α × World α η)

/-- What stands on a blow in the end is what stood there and all that was written, which therefore is no more than one
    thing. -/
theorem final_left : (left l us s).1.final.toList = s.1.final.toList ++ each l (Use.writes l) us s := by
  induction us generalizing s with
  | nil => exact (List.append_nil _).symm
  | cons u us ih =>
    show (left l us (u.leaves l s)).1.final.toList = _
    rw [ih, Use.final_leaves, List.append_assoc]
    rfl

theorem applications_sublist : (each l (Use.applies l) us s).Sublist (each l (Use.writes l) us s) := by
  induction us generalizing s with
  | nil => exact List.Sublist.refl _
  | cons u us ih =>
    refine List.Sublist.append ?_ (ih _)
    cases happlies : u.applies l s with
    | none => exact List.nil_sublist _
    | some d => rw [u.writes_of_applies s happlies]

theorem exists_tell : ∃ es, Tell l us s es ∧
    (es.filterMap Event.finalized?).map (·.damage.dealt) = each l (Use.applies l) us s ∧
    (es.filterMap Event.killed?).length ≤ (each l (Use.applies l) us s).length := by
  induction us generalizing s with
  | nil => exact ⟨[], rfl, rfl, Nat.le_refl _⟩
  | cons u us ih =>
    obtain ⟨now, htells, hfinalized, hkilled⟩ := u.exists_tells (l := l) s
    obtain ⟨later, hlater, hfinalized', hkilled'⟩ := ih (u.leaves l s)
    refine ⟨now ++ later, ⟨now, later, rfl, htells, hlater⟩, ?_, ?_⟩
    · rw [List.filterMap_append, List.map_append, hfinalized, hfinalized']
      rfl
    · rw [List.filterMap_append, List.length_append, each, List.length_append]
      exact Nat.add_le_add hkilled hkilled'

/-- What is so of a blow and a world after any uses of it. -/
structure WrittenOnce : Prop where
  once : (each l (Use.writes l) us s).length ≤ 1
  /-- What was written stands, and nothing else does. -/
  stands : ∀ d, (left l us s).1.final = some d ↔ s.1.final = some d ∨ d ∈ each l (Use.writes l) us s
  /-- Whatever stood on the blow after the first of the uses stands. -/
  stays : ∀ past later, us = past ++ later → ∀ d, (left l past s).1.final = some d → (left l us s).1.final = some d
  appliedOnce : (each l (Use.applies l) us s).length ≤ 1
  applied : ∀ d ∈ each l (Use.applies l) us s, (left l us s).1.final = some d
  refused : ∀ past later, us = past ++ .resolve :: later → ∀ d, (left l past s).1.final = some d →
    ∀ r v u, Shown l (left l past s).1 (left l past s).2 r v false u → Refused l (left l past s).1 (left l past s).2 r d
  /-- One kill at most is told of, and one applied attack: each time that the attack was applied. -/
  told : ∃ es, Tell l us s es ∧ (es.filterMap Event.killed?).length ≤ 1 ∧
    (es.filterMap Event.finalized?).map (·.damage.dealt) = each l (Use.applies l) us s

theorem left_append (past later : List (Use α η)) : left l (past ++ later) s = left l later (left l past s) :=
  List.foldl_append

/-- The final damage of a blow is written once at most, whatever is done with the blow and with the engine. -/
theorem written_once : WrittenOnce l us s := by
  have hfinal := final_left l us s
  have honce : (each l (Use.writes l) us s).length ≤ 1 := by
    have hlength := congrArg List.length hfinal
    rw [List.length_append] at hlength
    have hle : (left l us s).1.final.toList.length ≤ 1 := Option.length_toList_le
    omega
  have hstands : ∀ d, (left l us s).1.final = some d ↔ s.1.final = some d ∨ d ∈ each l (Use.writes l) us s := by
    intro d
    rw [← Option.mem_toList, hfinal, List.mem_append, Option.mem_toList]
  have happlied := (applications_sublist l us s).length_le.trans honce
  obtain ⟨es, htell, hfinalized, hkilled⟩ := exists_tell l us s
  refine ⟨honce, hstands, ?_, happlied, fun d hd => ?_, ?_, es, htell, hkilled.trans happlied, hfinalized⟩
  · rintro past later rfl d hd
    have hlater := final_left l later (left l past s)
    rw [left_append, ← Option.mem_toList, hlater]
    exact List.mem_append_left _ (Option.mem_toList.mpr hd)
  · exact (hstands d).mpr (Or.inr ((applications_sublist l us s).subset hd))
  · rintro past later - d hd r v u hshown
    exact hshown.refused hd

end World
end Fray
