import Fray.Proofs.Observance

/-! What the law of a timetable comes to for those who use it. -/

namespace Fray

open Mark Timetable

namespace Diary

variable {ρ κ : Type} {d : Diary ρ κ} {ds : List TaskId} {a : Appointment (TaskId × κ)}

/-- A turn of the task is still to come, and until now nobody cancelled the task. -/
def Outstanding (d : Diary ρ κ) (id : TaskId) : Prop :=
  ∃ s delay period n, .scheduled id s delay period ∈ d.marks ∧ d.moment.Before n id ∧ Appointed s delay period n ∧
    ¬ Stopped d.marks id n

/-- Everything ran when it was appointed, and will. -/
structure Punctual (d : Diary ρ κ) : Prop where
  ids : (d.marks.filterMap Mark.scheduled?).Pairwise (·.val < ·.val)
  turns : ∀ id s delay period, .scheduled id s delay period ∈ d.marks → ∀ n, ¬ d.moment.Before n id →
    (.ran id n ∈ d.marks ↔ Appointed s delay period n ∧ ¬ Stopped d.marks id n)
  ran : ∀ id n, .ran id n ∈ d.marks → ¬ d.moment.Before n id ∧
    ∃ s delay period, .scheduled id s delay period ∈ d.marks ∧ s < n
  order : d.runs.Pairwise fun x y => x.1 < y.1 ∨ x.1 = y.1 ∧ x.2.val < y.2.val
  pending : ∃ ids : List TaskId, ids.Nodup ∧ ids.length = d.table.pending ∧ ∀ id, id ∈ ids ↔ d.Outstanding id
  cancelled : ∀ id s delay period, .scheduled id s delay period ∈ d.marks →
    (d.table.isCancelled id = true ↔ ¬ d.Outstanding id)

/-- A task is in the timetable as long as a turn of it is still to come. -/
theorem Lawful.mem_tasks_iff (h : d.Lawful ds) (hb : InBounds d.marks) (id : TaskId) :
    (∃ a ∈ d.table.tasks, a.id = id) ↔ d.Outstanding id := by
  constructor
  · rintro ⟨a, ha, rfl⟩
    obtain ⟨s, delay, period, hs⟩ := h.sound.known a ha
    obtain ⟨-, hnext, hcome, -, hnot⟩ := (h.sound.timely hb _ _ _ _ hs).present a ha rfl
    exact ⟨s, delay, period, a.next, hs, h.placed.before_of_not_passed hcome, hnext, fun ⟨m, hm, _⟩ => hnot m hm⟩
  · rintro ⟨s, delay, period, n, hs, hbefore, happ, hstop⟩
    have hlaw := h.sound.timely hb _ _ _ _ hs
    by_contra hgone
    by_cases hpassed : d.table.Passed ds n id
    · exact h.placed.not_before_of_ran hpassed ((hlaw.turned n happ hpassed).mpr hstop) hbefore
    · exact hstop (hlaw.absent (fun a ha hid => hgone ⟨a, ha, hid⟩) n happ hpassed)

theorem Lawful.punctual (h : d.Lawful ds) (hb : InBounds d.marks) : d.Punctual where
  ids := h.sound.ids
  turns id s delay period hs n hn := by
    have hlaw := h.sound.timely hb _ _ _ _ hs
    have hpassed : d.table.Passed ds n id := by
      by_contra hp
      exact hn (h.placed.before_of_not_passed hp)
    constructor
    · intro hran
      obtain ⟨happ, -⟩ := hlaw.ran n hran
      exact ⟨happ, (hlaw.turned n happ hpassed).mp hran⟩
    · rintro ⟨happ, hstop⟩
      exact (hlaw.turned n happ hpassed).mpr hstop
  ran id n hran := by
    obtain ⟨⟨s, delay, period, hs⟩, -⟩ := h.sound.ran id n hran
    obtain ⟨happ, hpassed⟩ := (h.sound.timely hb _ _ _ _ hs).ran n hran
    exact ⟨h.placed.not_before_of_ran hpassed hran, s, delay, period, hs, happ.lt⟩
  order := h.sound.runs
  pending := by
    refine ⟨d.table.tasks.map (·.id), h.sound.ascending.nodup_ids, List.length_map _, fun id => ?_⟩
    rw [List.mem_map, h.mem_tasks_iff hb]
  cancelled id _ _ _ _ := by
    rw [isCancelled_iff, ← h.mem_tasks_iff hb]
    simp

end Diary

/-! ### What may follow -/

variable {ρ κ : Type} (script : κ → Errand ρ κ)

/-- From a point on: the job at work goes on with an errand, the agenda has its turns, and orders follow. -/
def Point.resume (p : Point ρ κ) (job : Errand ρ κ) (orders : List (Order ρ κ)) : Diary ρ κ :=
  Diary.after script orders (p.agenda.foldl (Diary.turned script) (job.run p.diary).settle)

/-- An errand that cancels some tasks. -/
def Errand.cancels : List TaskId → Errand ρ κ
  | [] => done
  | id :: ids => cancel id (cancels ids)

theorem Errand.mem_tasks_cancels (ids : List TaskId) (d : Diary ρ κ) (a : Appointment (TaskId × κ)) :
    a ∈ ((cancels ids).run d).table.tasks ↔ a ∈ d.table.tasks ∧ a.id ∉ ids := by
  induction ids generalizing d with
  | nil => simp [cancels, run]
  | cons id ids ih =>
    rw [cancels, run, ih]
    simp [Diary.cancel, Timetable.cancel, and_assoc]

/-- Nothing but the task `a` is scheduled. -/
def Timetable.Alone (t : Timetable κ) (a : Appointment κ) : Prop := a ∈ t.tasks ∧ ∀ b ∈ t.tasks, b = a

namespace Diary

variable {d : Diary ρ κ} {ds : List TaskId} {a : Appointment (TaskId × κ)}

theorem turned_of_ne (h : d.table.Alone a) {id : TaskId} (hid : id ≠ a.id) : turned script d id = d := by
  unfold turned
  rw [take_eq_none_iff.mpr]
  rintro b hb rfl
  exact hid (congrArg Appointment.id (h.2 b hb))

theorem turns_of_notMem (h : d.table.Alone a) (hds : a.id ∉ ds) : ds.foldl (turned script) d = d := by
  induction ds with
  | nil => rfl
  | cons id ds ih =>
    obtain ⟨hne, hds⟩ := not_or.mp (mt List.mem_cons.mpr hds)
    rw [List.foldl_cons, turned_of_ne script h (Ne.symm hne)]
    exact ih hds

theorem Observed.ran_of_mem (h : d.Observed ds) (hturn : d.turn = none) (ha : d.table.Alone a) (hds : a.id ∈ ds) :
    .ran a.id d.table.now ∈ (ds.foldl (Diary.turned script) d).marks := by
  induction ds with
  | nil => simp at hds
  | cons id ds ih =>
    by_cases hid : id = a.id
    · subst hid
      have hsome : (d.table.take a.id).isSome := by
        by_contra hnone
        exact take_eq_none_iff.mp (by simpa using hnone) a ha.1 rfl
      obtain ⟨hobs, hnone, -, -, hruns⟩ := h.turned script hturn
      obtain ⟨-, -, hpass, -⟩ := hobs.turns script hnone 0
      have hran : (d.table.now, a.id) ∈ (Diary.turned script d a.id).runs := by
        rw [hruns, if_pos hsome]
        exact List.mem_append_right _ (List.mem_singleton_self _)
      exact hpass.whole.marks.subset (mem_ran?.mp hran)
    · obtain ⟨hobs, -⟩ := h.turned script hturn
      rw [turned_of_ne script ha hid] at hobs
      rw [List.foldl_cons, turned_of_ne script ha hid]
      exact ih hobs ((List.mem_cons.mp hds).resolve_left (Ne.symm hid))

/-- A task that is alone runs when its time comes; one that should have run already does so in the next tick. -/
theorem Observed.ran_of_alone (h : d.Observed []) (hturn : d.turn = none) (ha : d.table.Alone a) {count n : Nat}
    (hn : n = d.table.now + count + 1) (hnext : n = max a.next (d.table.now + 1)) :
    .ran a.id n ∈ (d.advance script (count + 1)).marks := by
  have hobs : d.opened.Observed d.opened.table.due := ⟨h.sound.advance, h.named⟩
  induction count generalizing d with
  | zero =>
    have hle : a.next ≤ d.table.now + 1 := by omega
    have hdue : a.id ∈ d.opened.table.due :=
      List.mem_map.mpr ⟨a, List.mem_filter.mpr ⟨ha.1, decide_eq_true hle⟩, rfl⟩
    rw [advance_succ, tick_snd, hn]
    exact hobs.ran_of_mem script hturn ha hdue
  | succ count ih =>
    have hdue : a.id ∉ d.opened.table.due := fun hd => by
      obtain ⟨b, hb, -⟩ := List.mem_map.mp hd
      obtain ⟨hb, hle⟩ := List.mem_filter.mp hb
      have hle : b.next ≤ d.table.now + 1 := of_decide_eq_true hle
      rw [ha.2 b hb] at hle
      omega
    have hquiet : (d.tick script).2 = d.opened := by
      rw [tick_snd]
      exact turns_of_notMem script ha hdue
    obtain ⟨hobs', hnone, -⟩ := h.tick script hturn
    rw [hquiet] at hobs' hnone
    have hnow : d.opened.table.now = d.table.now + 1 := rfl
    rw [advance_succ, hquiet]
    refine ih hobs' hnone ha ?_ ?_ ⟨hobs'.sound.advance, hobs'.named⟩ <;> omega

/-- Whatever follows, a task that is gone will not run again. -/
theorem later_resume {p : Point ρ κ} (h : p.diary.Lawful p.agenda) (job : Errand ρ κ) (orders : List (Order ρ κ)) :
    Later p.diary (p.resume script job orders) := by
  obtain ⟨hlaw, hpass⟩ := h.errand job
  have hobs : (job.run p.diary).settle.Observed p.agenda := ⟨hlaw.sound, hlaw.named⟩
  obtain ⟨hobs, hnone, hpass', -⟩ := hobs.turns script rfl 0
  obtain ⟨-, -, hpass''⟩ := hobs.after script hnone orders
  exact ((hpass.whole.trans (later_settle _)).trans hpass'.whole).trans hpass''.whole

/-- A task that is scheduled may run again: it does once all others are cancelled. -/
theorem exists_resume {p : Point ρ κ} (h : p.diary.Lawful p.agenda) (ha : a ∈ p.diary.table.tasks) :
    ∃ job orders n, .ran a.id n ∈ (p.resume script job orders).marks ∧ .ran a.id n ∉ p.diary.marks := by
  -- The job at work cancels all other tasks, so that none of them can cancel this one before its turn.
  let others := (p.diary.table.tasks.map (·.id)).filter fun id => id ≠ a.id
  let d := ((Errand.cancels others).run p.diary).settle
  obtain ⟨hlaw, -⟩ := h.errand (Errand.cancels others)
  have hobs : d.Observed p.agenda := ⟨hlaw.sound, hlaw.named⟩
  have hnow : d.table.now = p.diary.table.now := (run_errand (Errand.cancels others) p.diary).1
  have halone : d.table.Alone a := by
    refine ⟨(Errand.mem_tasks_cancels others p.diary a).mpr ⟨ha, by simp [others]⟩, fun b hb => ?_⟩
    obtain ⟨hb, hkept⟩ := (Errand.mem_tasks_cancels others p.diary b).mp hb
    refine h.sound.ascending.eq_of_id_eq hb ha ?_
    by_contra hid
    exact hkept (List.mem_filter.mpr ⟨List.mem_map_of_mem hb, by simp [hid]⟩)
  by_cases hds : a.id ∈ p.agenda
  · refine ⟨Errand.cancels others, [], d.table.now, hobs.ran_of_mem script rfl halone hds, fun hran => ?_⟩
    rcases (h.sound.ran _ _ hran).2 with hlt | ⟨-, hlt⟩
    · exact Nat.lt_irrefl _ (hnow ▸ hlt)
    · exact Nat.lt_irrefl _ (hlt _ hds)
  · have hquiet : p.agenda.foldl (turned script) d = d := turns_of_notMem script halone hds
    obtain ⟨hidle, -⟩ := hobs.turns script rfl 0
    rw [hquiet] at hidle
    have hlater : d.table.now < max a.next (d.table.now + 1) :=
      Nat.lt_of_lt_of_le (Nat.lt_succ_self _) (Nat.le_max_right _ _)
    refine ⟨Errand.cancels others, [.advance (max a.next (d.table.now + 1) - d.table.now - 1 + 1)],
      max a.next (d.table.now + 1), ?_, fun hran => ?_⟩
    · show .ran a.id _ ∈ ((p.agenda.foldl (turned script) d).advance script _).marks
      rw [hquiet]
      exact hidle.ran_of_alone script rfl halone (by omega) rfl
    · have hle : max a.next (d.table.now + 1) ≤ d.table.now := by
        rw [hnow] at hran ⊢
        exact (h.sound.ran _ _ hran).2.elim Nat.le_of_lt fun h => Nat.le_of_eq h.1
      exact Nat.not_le_of_lt hlater hle

/-! ### The whole of it -/

/-- A scheduled task is cancelled if and only if it never runs again, whatever follows. -/
def Candid (p : Point ρ κ) : Prop :=
  ∀ id s delay period, .scheduled id s delay period ∈ p.diary.marks →
    (p.diary.table.isCancelled id = true ↔
      ∀ job orders n, .ran id n ∈ (p.resume script job orders).marks → .ran id n ∈ p.diary.marks)

/-- A task that was cancelled at a point is cancelled at a later one, and did not run in between. -/
def Settled (p q : Point ρ κ) : Prop :=
  ∀ id s delay period, .scheduled id s delay period ∈ p.diary.marks → p.diary.table.isCancelled id = true →
    q.diary.table.isCancelled id = true ∧ ∀ n, .ran id n ∈ q.diary.marks ↔ .ran id n ∈ p.diary.marks

/-- A tick answers how many jobs it ran, one after the other in the order of their ids. -/
def Counted (d : Diary ρ κ) : Prop :=
  ∃ ran : List TaskId, ran.Pairwise (·.val < ·.val) ∧ (d.tick script).1 = ran.length ∧
    (d.tick script).2.runs = d.runs ++ ran.map (d.table.now + 1, ·)

theorem Lawful.candid {p : Point ρ κ} (h : p.diary.Lawful p.agenda) : Candid script p := by
  intro id s delay period hs
  rw [isCancelled_iff]
  constructor
  · intro hgone job orders n hran
    exact ((later_resume script h job orders).gone id (h.sound.handed _ _ _ _ hs) hgone).2 n hran
  · rintro hnever a ha rfl
    obtain ⟨job, orders, n, hran, hnew⟩ := exists_resume script h ha
    exact hnew (hnever job orders _ hran)

theorem Later.settled {p q : Point ρ κ} (hp : p.diary.Lawful p.agenda) (h : Later p.diary q.diary) : Settled p q := by
  intro id s delay period hs hgone
  rw [isCancelled_iff] at hgone ⊢
  obtain ⟨hlater, hran⟩ := h.gone id (hp.sound.handed _ _ _ _ hs) hgone
  exact ⟨hlater, fun n => ⟨hran n, fun hn => h.marks.subset hn⟩⟩

/-- A timetable is followed exactly: at every point of every run, from the first order on, as long as no sum of ticks
    goes past the last one. -/
theorem keeps_time (rest : ρ) (orders : List (Order ρ κ)) :
    (∀ p ∈ points script orders { rest }, (InBounds p.diary.marks → p.diary.Punctual) ∧ Candid script p) ∧
      (points script orders { rest }).Pairwise Settled ∧ Counted script (after script orders { rest }) := by
  obtain ⟨hobs, hnone, hpass⟩ := (observed_start rest).after script rfl orders
  refine ⟨fun p hp => ⟨fun hb => (hpass.law p hp).punctual hb, (hpass.law p hp).candid script⟩, ?_, ?_⟩
  · exact hpass.order.imp_of_mem fun hp _ hlater => hlater.settled (hpass.law _ hp)
  · obtain ⟨-, -, -, hcount⟩ := hobs.tick script hnone
    exact hcount

theorem mem_points_after (orders : List (Order ρ κ)) (d : Diary ρ κ) :
    ⟨after script orders d, []⟩ ∈ points script orders d := by
  induction orders generalizing d with
  | nil => exact List.mem_singleton_self _
  | cons o orders ih => exact List.mem_cons_of_mem _ (List.mem_append_right _ (ih _))

/-! ### A day of chores -/

/-- A chore that is done, and one that puts an end to the first task. -/
def chore : Bool → Errand Unit Bool
  | true => .done
  | false => .cancel ⟨1⟩ .done

/-- The first chore comes every two ticks, until the other one comes in the fourth. -/
def chores : Diary Unit Bool := after chore [.schedule true 0 2, .schedule false 4 0, .advance 6] { rest := () }

theorem marks_chores : chores.marks = [.scheduled ⟨1⟩ 0 0 2, .scheduled ⟨2⟩ 0 4 0, .ran ⟨1⟩ 1, .ran ⟨1⟩ 3, .ran ⟨2⟩ 4,
    .cancelled ⟨1⟩ ⟨4, some ⟨2⟩⟩] := rfl

/-- The chores are done when they are appointed. -/
theorem chores_in_time : InBounds chores.marks ∧ chores.Punctual ∧ chores.runs = [(1, ⟨1⟩), (3, ⟨1⟩), (4, ⟨2⟩)] := by
  have hbounds : InBounds chores.marks := by
    rw [marks_chores]
    intro id s delay period hs
    have hs : id = ⟨1⟩ ∧ s = 0 ∧ delay = 0 ∧ period = 2 ∨ id = ⟨2⟩ ∧ s = 0 ∧ delay = 4 ∧ period = 0 := by simpa using hs
    rcases hs with ⟨rfl, rfl, rfl, rfl⟩ | ⟨rfl, rfl, rfl, rfl⟩
    · refine ⟨by decide, fun _ n hn => ?_⟩
      have hn : n = 1 ∨ n = 3 := by simpa using hn
      rcases hn with rfl | rfl <;> decide
    · exact ⟨by decide, fun hp => absurd rfl hp⟩
  exact ⟨hbounds, ((keeps_time chore () _).1 _ (mem_points_after ..)).1 hbounds, rfl⟩

end Diary
end Fray
