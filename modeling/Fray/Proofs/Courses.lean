import Fray.Engine.Cast
import Fray.Proofs.Action
import Fray.Proofs.Appointments
import Fray.Proofs.Association

/-! What can happen to a world between two of its moments, as the timetable sees it. Anything may be done to the rest
    of the world; the timetable is only scheduled with, cancelled on and ticked, from within its own jobs as well. So
    a task that is to run once runs in the tick that it was entered for, and in no other, unless it was cancelled. -/

namespace Fray

open Act

/-! ### Ordered timetables -/

namespace Timetable

variable {κ : Type} {t u : Timetable κ}

/-- The ids ascend, and the next one is above them all. -/
structure Ordered (t : Timetable κ) : Prop where
  ascending : t.Ascending
  below : ∀ a ∈ t.tasks, a.id.val < t.nextId

theorem Ordered.start : Ordered ({} : Timetable κ) := ⟨List.Pairwise.nil, by simp⟩

theorem Ordered.schedule (h : t.Ordered) (job : κ) (delay period : Nat) : (t.schedule job delay period).2.Ordered where
  ascending := h.ascending.schedule h.below job delay period
  below a ha := by
    rcases List.mem_append.mp ha with ha | ha
    · exact Nat.lt_succ_of_lt (h.below a ha)
    · obtain rfl := List.mem_singleton.mp ha
      exact Nat.lt_succ_self _

theorem Ordered.cancel (h : t.Ordered) (id : TaskId) : (t.cancel id).Ordered where
  ascending := h.ascending.cancel id
  below a ha := h.below a (List.mem_filter.mp ha).1

theorem Ordered.advance (h : t.Ordered) : t.advance.Ordered := ⟨h.ascending, h.below⟩

theorem Ordered.take (h : t.Ordered) {id : TaskId} {job : κ} (ht : t.take id = some (job, u)) : u.Ordered := by
  obtain ⟨a, ha, -, -, -, hnext, hascending, hmem⟩ := mem_tasks_take h.ascending ht
  refine ⟨hascending, fun b hb => ?_⟩
  rw [hnext]
  rcases (hmem b).mp hb with ⟨hb, -⟩ | ⟨-, rfl⟩
  · exact h.below b hb
  · exact h.below a ha

/-- The task is not scheduled. -/
def Lacks (t : Timetable κ) (id : TaskId) : Prop := ∀ a ∈ t.tasks, a.id ≠ id

theorem Lacks.schedule {id : TaskId} (h : t.Lacks id) (hid : id.val < t.nextId) (job : κ) (delay period : Nat) :
    (t.schedule job delay period).2.Lacks id := fun a ha => by
  rcases List.mem_append.mp ha with ha | ha
  · exact h a ha
  · obtain rfl := List.mem_singleton.mp ha
    intro heq
    exact absurd hid (by rw [← heq]; exact Nat.lt_irrefl _)

theorem Lacks.cancel {id : TaskId} (h : t.Lacks id) (other : TaskId) : (t.cancel other).Lacks id :=
  fun a ha => h a (List.mem_filter.mp ha).1

theorem Lacks.take {id other : TaskId} (h : t.Lacks id) (ht : t.Ascending) {job : κ}
    (htake : t.take other = some (job, u)) : u.Lacks id := by
  obtain ⟨a, ha, -, -, -, -, -, hmem⟩ := mem_tasks_take ht htake
  intro b hb
  rcases (hmem b).mp hb with ⟨hb, -⟩ | ⟨-, rfl⟩
  · exact h b hb
  · exact h a ha

theorem mem_due {t : Timetable κ} {id : TaskId} : id ∈ t.due ↔ ∃ a ∈ t.tasks, a.next ≤ t.now ∧ a.id = id := by
  simp [due, and_assoc]

end Timetable

/-! ### Courses -/

/-- Those who are told of things, and who do them. -/
structure Crew (α η : Type) where
  listeners : Listeners α η
  effects : Effects α η
  repertoire : Repertoire α η

/-- What happens to a timetable. -/
inductive Incident (ι α η : Type) where
  /-- A job is entered in this tick. -/
  | entered (id : TaskId) (job : Job α) (tick delay period : Nat)
  | cancelled (id : TaskId)
  | opened (tick : Nat)
  /-- The job of a task is run with the crew `who`, from this world. -/
  | ran (who : ι) (id : TaskId) (job : Job α) (from_ : World α η)
  | closed (tick : Nat)

def Incident.opened? {ι α η : Type} : Incident ι α η → Option Nat
  | opened n => some n
  | entered _ _ _ _ _ | cancelled _ | ran _ _ _ _ | closed _ => none

variable {ι α η : Type} [Amount α] [Host η α]

/-- Runs a job with a crew. -/
def Crew.run (k : Crew α η) : Job α → Act α η Unit := World.runJob k.listeners k.effects k.repertoire .ticked

/-- From one world to another, where the tasks on the agenda still have their turn in the tick that is under way. -/
inductive Course (crew : ι → Crew α η) : List TaskId → World α η → List (Incident ι α η) → World α η → Prop
  | done {w : World α η} : Course crew [] w [] w
  /-- Anything at all, as long as the timetable is left alone. -/
  | aside {ds ls} {w v u : World α η} (same : v.timetable = w.timetable) (rest : Course crew ds v ls u) :
    Course crew ds w ls u
  | enter {ds ls} {w u : World α η} (job : Job α) (delay period : Nat)
    (rest : Course crew ds { w with timetable := (w.timetable.schedule job delay period).2 } ls u) :
    Course crew ds w (.entered ⟨w.timetable.nextId⟩ job w.timetable.now delay period :: ls) u
  | cancel {ds ls} {w u : World α η} (id : TaskId)
    (rest : Course crew ds { w with timetable := w.timetable.cancel id } ls u) :
    Course crew ds w (.cancelled id :: ls) u
  /-- There is no turn for a task that is scheduled no more. -/
  | skip {ds ls} {w u : World α η} {id : TaskId} (none : w.timetable.take id = none) (rest : Course crew ds w ls u) :
    Course crew (id :: ds) w ls u
  | turn {ds ls ls'} {w u : World α η} {id : TaskId} {job : Job α} {t : Timetable (Job α)} (who : ι)
    (taken : w.timetable.take id = some (job, t))
    (run : Course crew [] { w with timetable := t } ls (after ((crew who).run job) { w with timetable := t }))
    (rest : Course crew ds (after ((crew who).run job) { w with timetable := t }) ls' u) :
    Course crew (id :: ds) w (.ran who id job { w with timetable := t } :: ls ++ ls') u
  | tick {ds ls ls'} {w v u : World α η}
    (turns : Course crew w.timetable.advance.due { w with timetable := w.timetable.advance } ls v)
    (rest : Course crew ds v ls' u) :
    Course crew ds w (.opened (w.timetable.now + 1) :: ls ++ .closed (w.timetable.now + 1) :: ls') u

/-- What can follow in the middle of things: the course of the moment, then that of each tick under way, the innermost
    first, and of whatever it was called from. -/
inductive Sequel (crew : ι → Crew α η) :
    List (Nat × List TaskId) → World α η → List (Incident ι α η) → World α η → Prop
  | outside {ls} {w u : World α η} (rest : Course crew [] w ls u) : Sequel crew [] w ls u
  | within {frames ls ls' ls''} {w v v' u : World α η} {n : Nat} {ds : List TaskId} (here : Course crew [] w ls v)
    (turns : Course crew ds v ls' v') (rest : Sequel crew frames v' ls'' u) :
    Sequel crew ((n, ds) :: frames) w (ls ++ ls' ++ .closed n :: ls'') u

variable {crew : ι → Crew α η} {w v u : World α η} {ds ds' : List TaskId} {ls ls' : List (Incident ι α η)}

theorem Course.append (h : Course crew ds w ls v) (h' : Course crew ds' v ls' u) :
    Course crew (ds ++ ds') w (ls ++ ls') u := by
  induction h with
  | done => exact h'
  | aside same _ ih => exact .aside same (ih h')
  | enter job delay period _ ih => exact .enter job delay period (ih h')
  | cancel id _ ih => exact .cancel id (ih h')
  | skip hnone _ ih => exact .skip hnone (ih h')
  | turn who taken run _ _ ih =>
    rw [List.append_assoc]
    exact .turn who taken run (ih h')
  | tick turns _ _ ih =>
    rw [List.append_assoc]
    exact .tick turns (ih h')

theorem Course.ordered (h : Course crew ds w ls v) (hw : w.timetable.Ordered) : v.timetable.Ordered := by
  induction h with
  | done => exact hw
  | aside same _ ih => exact ih (same ▸ hw)
  | enter job delay period _ ih => exact ih (hw.schedule job delay period)
  | cancel id _ ih => exact ih (hw.cancel id)
  | skip _ _ ih => exact ih hw
  | turn who taken _ _ ihrun ih => exact ih (ihrun (hw.take taken))
  | tick _ _ ihturns ih => exact ih (ihturns hw.advance)

/-! ### The law of a single run -/

/-- The law of a task that is to run `job` once, in tick `n`, and of what happened since it was entered. -/
structure Once (id : TaskId) (job : Job α) (n : Nat) (ls : List (Incident ι α η)) : Prop where
  /-- It runs its job, within tick `n`, not before it and not after it; once, and not when it was cancelled. -/
  punctual : ∀ pre who job' u post, ls = pre ++ .ran who id job' u :: post →
    job' = job ∧ .opened n ∈ pre ∧ .closed n ∉ pre ∧ .cancelled id ∉ pre ∧ ∀ who' job' u', .ran who' id job' u' ∉ pre
  /-- By the end of tick `n` it ran, unless it was cancelled. -/
  heeded : ∀ pre post, ls = pre ++ .closed n :: post → (∃ who u, .ran who id job u ∈ pre) ∨ .cancelled id ∈ pre

variable {id : TaskId} {job : Job α} {n : Nat}

namespace Once

omit [Amount α] [Host η α] in
theorem nil : Once id job n ([] : List (Incident ι α η)) := ⟨by simp, by simp⟩

omit [Amount α] [Host η α] in
theorem concat (h : Once id job n ls) {x : Incident ι α η}
    (hran : ∀ who job' u, x = .ran who id job' u →
      job' = job ∧ .opened n ∈ ls ∧ .closed n ∉ ls ∧ .cancelled id ∉ ls ∧ ∀ who' job' u', .ran who' id job' u' ∉ ls)
    (hclosed : x = .closed n → (∃ who u, .ran who id job u ∈ ls) ∨ .cancelled id ∈ ls) : Once id job n (ls ++ [x]) where
  punctual pre who job' u post heq := by
    rcases concat_eq_append_cons.mp heq with ⟨rfl, hx, -⟩ | ⟨mid, -, hls⟩
    · exact hran who job' u hx
    · exact h.punctual pre who job' u mid hls
  heeded pre post heq := by
    rcases concat_eq_append_cons.mp heq with ⟨rfl, hx, -⟩ | ⟨mid, -, hls⟩
    · exact hclosed hx
    · exact h.heeded pre mid hls

end Once

/-- Where a task stands that was entered in tick `s` to run once, in tick `n`. -/
structure Awaited (id : TaskId) (job : Job α) (s n : Nat) (t : Timetable (Job α)) (ls : List (Incident ι α η)) :
    Prop where
  ordered : t.Ordered
  known : id.val < t.nextId
  since : s ≤ t.now
  /-- The ticks follow on one another. -/
  ticks : ls.filterMap Incident.opened? = List.range' (s + 1) (t.now - s)
  law : Once id job n ls
  /-- It still waits, or it is gone, for it ran or was cancelled. -/
  stands : ⟨id, job, n, 0⟩ ∈ t.tasks ∧ .closed n ∉ ls ∧ .cancelled id ∉ ls ∧ (∀ who job' u, .ran who id job' u ∉ ls) ∨
    t.Lacks id ∧ ((∃ who u, .ran who id job u ∈ ls) ∨ .cancelled id ∈ ls)

namespace Awaited

variable {s : Nat} {t : Timetable (Job α)}

omit [Amount α] [Host η α]

theorem mem_opened (h : Awaited id job s n t ls) (hs : s < n) (hn : n ≤ t.now) : .opened n ∈ ls := by
  have hmem : n ∈ ls.filterMap Incident.opened? := by
    rw [h.ticks, List.mem_range'_1]
    omega
  obtain ⟨x, hx, hopened⟩ := List.mem_filterMap.mp hmem
  cases x with
  | opened m =>
    obtain rfl : m = n := by simpa [Incident.opened?] using hopened
    exact hx
  | _ => simp [Incident.opened?] at hopened

/-- A task that has just been entered is awaited. -/
theorem entered (h : t.Ordered) (job : Job α) {d : Nat} (hd : 0 < d) (hb : t.now + d < Tick.bound) :
    Awaited ⟨t.nextId⟩ job t.now (t.now + d) (t.schedule job d 0).2 ([] : List (Incident ι α η)) where
  ordered := h.schedule job d 0
  known := Nat.lt_succ_self _
  since := Nat.le_refl _
  ticks := by
    have hnow : (t.schedule job d 0).2.now - t.now = 0 := Nat.sub_self _
    rw [hnow]
    rfl
  law := .nil
  stands := by
    have hmax : max d 1 = d := Nat.max_eq_left hd
    refine Or.inl ⟨List.mem_append_right _ ?_, by simp, by simp, by simp⟩
    rw [hmax, Tick.later_of_lt hb]
    exact List.mem_singleton_self _

theorem ticks_quiet (h : Awaited id job s n t ls) {x : Incident ι α η} (hx : x.opened? = none) :
    (ls ++ [x]).filterMap Incident.opened? = List.range' (s + 1) (t.now - s) := by
  have hnone : [x].filterMap Incident.opened? = [] := by simp [hx]
  rw [List.filterMap_append, hnone, List.append_nil, h.ticks]

/-- Nothing but its turn and the end of its tick tells on a task that still waits. -/
theorem concat (h : Awaited id job s n t ls) {t' : Timetable (Job α)} {x : Incident ι α η} (hordered : t'.Ordered)
    (hknown : id.val < t'.nextId) (hsince : s ≤ t'.now)
    (hticks : (ls ++ [x]).filterMap Incident.opened? = List.range' (s + 1) (t'.now - s))
    (hran : ∀ who job' u, x ≠ .ran who id job' u) (hclosed : x = .closed n → t'.Lacks id)
    (hstays : ∀ a, a.id = id → (a ∈ t'.tasks ↔ a ∈ t.tasks ∧ x ≠ .cancelled id)) :
    Awaited id job s n t' (ls ++ [x]) := by
  have hlacks : t.Lacks id → t'.Lacks id := fun hl a ha hid => hl a ((hstays a hid).mp ha).1 hid
  have hfate : (⟨id, job, n, 0⟩ ∈ t'.tasks ∧ .closed n ∉ ls ++ [x] ∧ .cancelled id ∉ ls ++ [x] ∧
        (∀ who job' u, .ran who id job' u ∉ ls ++ [x])) ∨
      t'.Lacks id ∧ ((∃ who u, .ran who id job u ∈ ls ++ [x]) ∨ .cancelled id ∈ ls ++ [x]) := by
    rcases h.stands with ⟨hmem, hnotclosed, hnotcancelled, hnotran⟩ | ⟨hl, hgone⟩
    · by_cases hx : x = .cancelled id
      · exact Or.inr ⟨fun a ha hid => ((hstays a hid).mp ha).2 hx, Or.inr (by simp [hx])⟩
      · have hmem' := (hstays ⟨id, job, n, 0⟩ rfl).mpr ⟨hmem, hx⟩
        refine Or.inl ⟨hmem', fun hc => ?_, fun hc => ?_, fun who job' u hc => ?_⟩
        · rcases List.mem_append.mp hc with hc | hc
          · exact hnotclosed hc
          · exact hclosed (List.mem_singleton.mp hc).symm _ hmem' rfl
        · rcases List.mem_append.mp hc with hc | hc
          · exact hnotcancelled hc
          · exact hx (List.mem_singleton.mp hc).symm
        · rcases List.mem_append.mp hc with hc | hc
          · exact hnotran who job' u hc
          · exact hran who job' u (List.mem_singleton.mp hc).symm
    · refine Or.inr ⟨hlacks hl, ?_⟩
      rcases hgone with ⟨who, u, hr⟩ | hc
      · exact Or.inl ⟨who, u, List.mem_append_left _ hr⟩
      · exact Or.inr (List.mem_append_left _ hc)
  refine ⟨hordered, hknown, hsince, hticks,
    h.law.concat (fun who job' u hx => absurd hx (hran who job' u)) fun hx => ?_, hfate⟩
  -- at the end of its tick the task is gone, and it was so before
  rcases h.stands with ⟨hmem, -⟩ | ⟨-, hgone⟩
  · exact absurd rfl (hclosed hx _ ((hstays ⟨id, job, n, 0⟩ rfl).mpr ⟨hmem, by simp [hx]⟩))
  · exact hgone

theorem enter (h : Awaited id job s n t ls) (other : Job α) (delay period : Nat) :
    Awaited id job s n (t.schedule other delay period).2 (ls ++ [.entered ⟨t.nextId⟩ other t.now delay period]) := by
  refine h.concat (h.ordered.schedule other delay period) (Nat.lt_succ_of_lt h.known) h.since (h.ticks_quiet rfl)
    (by simp) (by simp) fun a hid => ⟨fun ha => ⟨?_, by simp⟩, fun ha => List.mem_append_left _ ha.1⟩
  rcases List.mem_append.mp ha with ha | ha
  · exact ha
  · have hne : id.val = t.nextId := by rw [← hid, List.mem_singleton.mp ha]
    exact absurd h.known (by omega)

theorem cancel (h : Awaited id job s n t ls) (other : TaskId) :
    Awaited id job s n (t.cancel other) (ls ++ [.cancelled other]) := by
  refine h.concat (h.ordered.cancel other) h.known h.since (h.ticks_quiet rfl) (by simp) (by simp) fun a hid => ?_
  show a ∈ t.tasks.filter (fun b => b.id ≠ other) ↔ _
  rw [List.mem_filter, decide_eq_true_eq, hid]
  exact and_congr_right fun _ => by simp [eq_comm]

theorem opening (h : Awaited id job s n t ls) : Awaited id job s n t.advance (ls ++ [.opened (t.now + 1)]) := by
  have hsince := h.since
  refine h.concat h.ordered.advance h.known (Nat.le_succ_of_le h.since) ?_ (by simp) (by simp) fun a _ => by
    simp [Timetable.advance]
  have hnow : t.advance.now - s = t.now - s + 1 := by
    show t.now + 1 - s = _
    omega
  have hlast : s + 1 + (t.now - s) = t.now + 1 := by omega
  rw [List.filterMap_append, h.ticks, hnow, List.range'_concat, Nat.one_mul, hlast]
  rfl

theorem closing (h : Awaited id job s n t ls) {m : Nat} (hm : m = n → t.Lacks id) :
    Awaited id job s n t (ls ++ [.closed m]) :=
  h.concat h.ordered h.known h.since (h.ticks_quiet rfl) (by simp) (fun hx => hm (by simpa using hx)) fun a _ => by
    simp

/-- The turn of the task is its run; of a turn of another it takes no notice. -/
theorem take (h : Awaited id job s n t ls) (hs : s < n) {other : TaskId} {taken : Job α} {t' : Timetable (Job α)}
    (ht : t.take other = some (taken, t')) (hdue : other = id → n ≤ t.now) (who : ι) (u : World α η) :
    Awaited id job s n t' (ls ++ [.ran who other taken u]) ∧ (other = id → t'.Lacks id) := by
  obtain ⟨a, ha, hid, hjob, hnow, hnext, -, hmem⟩ := Timetable.mem_tasks_take h.ordered.ascending ht
  have hticks := h.ticks_quiet (x := .ran who other taken u) rfl
  rw [← hnow] at hticks
  by_cases hother : other = id
  · subst hother
    rcases h.stands with ⟨hwaits, hnotclosed, hnotcancelled, hnotran⟩ | ⟨hl, -⟩
    · obtain rfl : a = ⟨other, job, n, 0⟩ := h.ordered.ascending.eq_of_id_eq ha hwaits hid
      obtain rfl : job = taken := hjob
      have hlacks : t'.Lacks other := fun b hb hb' => by
        rcases (hmem b).mp hb with ⟨-, hne⟩ | ⟨hperiod, -⟩
        · exact hne hb'
        · exact hperiod rfl
      refine ⟨⟨h.ordered.take ht, hnext ▸ h.known, hnow ▸ h.since, hticks, h.law.concat (fun who' job' u' hx => ?_)
        (by simp), Or.inr ⟨hlacks, Or.inl ⟨who, u, by simp⟩⟩⟩, fun _ => hlacks⟩
      obtain ⟨-, -, rfl, -⟩ : who = who' ∧ True ∧ job = job' ∧ u = u' := by simpa using hx
      exact ⟨rfl, h.mem_opened hs (hdue rfl), hnotclosed, hnotcancelled, hnotran⟩
    · exact absurd hid (hl a ha)
  · refine ⟨h.concat (h.ordered.take ht) (hnext ▸ h.known) (hnow ▸ h.since) hticks ?_ (by simp) fun b hb => ?_,
      fun h => absurd h hother⟩
    · intro who' job' u' hx
      exact hother (by simpa using (Incident.ran.inj hx).2.1)
    · rw [hmem]
      constructor
      · rintro (⟨hbt, -⟩ | ⟨-, rfl⟩)
        · exact ⟨hbt, by simp⟩
        · exact absurd (hid.symm.trans hb) hother
      · rintro ⟨hbt, -⟩
        exact Or.inl ⟨hbt, fun hbo => hother (hbo.symm.trans hb)⟩

end Awaited

/-- Whatever happens, the law of the task is kept, and a task on the agenda is gone once the agenda is through. -/
theorem Course.awaited {s : Nat} (h : Course crew ds w ls v) (hs : s < n) :
    ∀ {pre : List (Incident ι α η)}, Awaited id job s n w.timetable pre → (id ∈ ds → n ≤ w.timetable.now) →
      Awaited id job s n v.timetable (pre ++ ls) ∧ w.timetable.now ≤ v.timetable.now ∧
        (w.timetable.Lacks id ∨ id ∈ ds → v.timetable.Lacks id) := by
  induction h with
  | done =>
    intro pre hw _
    exact ⟨by simpa using hw, Nat.le_refl _, by simp⟩
  | aside same _ ih =>
    intro pre hw hds
    rw [← same] at hw hds ⊢
    exact ih hw hds
  | @enter ds ls w u other delay period _ ih =>
    intro pre hw hds
    obtain ⟨hv, hnow, hl⟩ := ih (hw.enter other delay period) hds
    exact ⟨by simpa using hv, hnow, fun h => hl (h.imp_left fun h => h.schedule hw.known other delay period)⟩
  | cancel other _ ih =>
    intro pre hw hds
    obtain ⟨hv, hnow, hl⟩ := ih (hw.cancel other) hds
    exact ⟨by simpa using hv, hnow, fun h => hl (h.imp_left fun h => h.cancel other)⟩
  | @skip ds ls w u other hnone _ ih =>
    intro pre hw hds
    obtain ⟨hv, hnow, hl⟩ := ih hw fun h => hds (List.mem_cons_of_mem other h)
    refine ⟨hv, hnow, fun h => hl ?_⟩
    rcases h with h | h
    · exact Or.inl h
    · rcases List.mem_cons.mp h with rfl | h
      · exact Or.inl (Timetable.take_eq_none_iff.mp hnone)
      · exact Or.inr h
  | @turn ds ls ls' w u other taken t who htake _ _ ihrun ih =>
    intro pre hw hds
    -- The run of the job is a course of its own; if the task had its turn, it is gone before its job starts.
    obtain ⟨ht, hgone⟩ := hw.take hs htake (fun h => hds (by simp [h])) who { w with timetable := t }
    obtain ⟨-, -, -, -, hnow, -⟩ := Timetable.mem_tasks_take hw.ordered.ascending htake
    obtain ⟨hrun, hrunnow, hrunl⟩ := ihrun ht (by simp)
    have hle : w.timetable.now ≤ (after ((crew who).run taken) { w with timetable := t }).timetable.now := by
      have hrunnow : t.now ≤ _ := hrunnow
      omega
    obtain ⟨hv, hvnow, hl⟩ := ih hrun fun h => Nat.le_trans (hds (List.mem_cons_of_mem other h)) hle
    refine ⟨by simpa using hv, Nat.le_trans hle hvnow, fun h => hl ?_⟩
    rcases h with h | h
    · exact Or.inl (hrunl (Or.inl (h.take hw.ordered.ascending htake)))
    · rcases List.mem_cons.mp h with rfl | h
      · exact Or.inl (hrunl (Or.inl (hgone rfl)))
      · exact Or.inr h
  | @tick ds ls ls' w v u _ _ ihturns ih =>
    intro pre hw hds
    have hopened := hw.opening
    have hdue : id ∈ w.timetable.advance.due → n ≤ w.timetable.advance.now := fun hmem => by
      obtain ⟨a, ha, hnext, hid⟩ := Timetable.mem_due.mp hmem
      rcases hw.stands with ⟨hwaits, -⟩ | ⟨hl, -⟩
      · obtain rfl : a = ⟨id, job, n, 0⟩ := hw.ordered.ascending.eq_of_id_eq ha hwaits hid
        exact hnext
      · exact absurd hid (hl a ha)
    obtain ⟨hturns, hturnsnow, hturnsl⟩ := ihturns hopened hdue
    -- When its tick closes, the task is gone: it was on the agenda of that tick, or gone before.
    have hle : w.timetable.now ≤ v.timetable.now := Nat.le_trans (Nat.le_succ _) hturnsnow
    have hclosed := hturns.closing (m := w.timetable.now + 1) fun hm => hturnsl ?_
    · obtain ⟨hv, hvnow, hl⟩ := ih hclosed fun h => Nat.le_trans (hds h) hle
      refine ⟨by simpa using hv, Nat.le_trans hle hvnow, fun h => hl (h.imp_left fun h => hturnsl (Or.inl h))⟩
    · rcases hw.stands with ⟨hwaits, -⟩ | ⟨hl, -⟩
      · exact Or.inr (Timetable.mem_due.mpr ⟨_, hwaits, Nat.le_of_eq hm.symm, rfl⟩)
      · exact Or.inl hl

/-- In the middle of things too, with ticks under way that opened before the task was entered. -/
theorem Sequel.awaited {s : Nat} {frames : List (Nat × List TaskId)} (h : Sequel crew frames w ls v) (hs : s < n)
    (hframes : ∀ f ∈ frames, f.1 ≤ s ∧ id ∉ f.2) :
    ∀ {pre : List (Incident ι α η)}, Awaited id job s n w.timetable pre →
      Awaited id job s n v.timetable (pre ++ ls) := by
  induction h with
  | outside rest => exact fun hw => (rest.awaited hs hw (by simp)).1
  | @within frames ls ls' ls'' w v v' u m ds here turns _ ih =>
    intro pre hw
    obtain ⟨hm, hds⟩ := hframes (m, ds) List.mem_cons_self
    have hhere := (here.awaited hs hw (by simp)).1
    have hturns := (turns.awaited hs hhere fun h => absurd h hds).1
    have hclosed := hturns.closing (m := m) fun hmn => absurd hm (by show ¬m ≤ s; omega)
    simpa using ih (fun f hf => hframes f (List.mem_cons_of_mem _ hf)) hclosed

end Fray
