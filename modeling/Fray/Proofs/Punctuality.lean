import Fray.Proofs.Diary

/-! A timetable is followed exactly. Beside the agenda of a tick, that is the due tasks whose turn has not come yet,
    stands a law for every task: what ran so far, and what is scheduled or was cancelled, agree with its
    appointments, as long as no sum of ticks goes past the last one. Every operation keeps the law, so it holds at
    every point of every run. -/

namespace Fray

variable {κ : Type}

/-! ### Cancellations -/

/-- The task was cancelled at this moment, after it was scheduled. -/
def Mark.Cancelled (marks : List Mark) (id : TaskId) (m : Moment) : Prop :=
  ∃ s delay period, [Mark.scheduled id s delay period, .cancelled id m].Sublist marks

/-- The task was cancelled before its turn in tick `n`. -/
def Mark.Stopped (marks : List Mark) (id : TaskId) (n : Nat) : Prop := ∃ m, Cancelled marks id m ∧ m.Before n id

open Mark

theorem pair_sublist_concat {α : Type} {a b x : α} {l : List α} :
    [a, b].Sublist (l ++ [x]) ↔ [a, b].Sublist l ∨ a ∈ l ∧ b = x := by
  constructor
  · intro h
    obtain ⟨l₁, l₂, heq, h₁, h₂⟩ := List.sublist_append_iff.mp h
    rcases List.sublist_singleton.mp h₂ with rfl | rfl
    · exact Or.inl (by simpa [heq] using h₁)
    · obtain ⟨rfl, rfl⟩ : l₁ = [a] ∧ b = x := by
        have hconcat : [a] ++ [b] = l₁ ++ [x] := heq
        obtain ⟨ha, hb⟩ := List.append_inj' hconcat rfl
        exact ⟨ha.symm, by simpa using hb⟩
      exact Or.inr ⟨List.singleton_sublist.mp h₁, rfl⟩
  · rintro (h | ⟨ha, rfl⟩)
    · exact h.trans (List.sublist_append_left _ _)
    · exact (List.singleton_sublist.mpr ha).append (List.Sublist.refl [b])

theorem cancelled_concat {marks : List Mark} {x : Mark} {id : TaskId} {m : Moment} :
    Cancelled (marks ++ [x]) id m ↔
      Cancelled marks id m ∨ (∃ s delay period, .scheduled id s delay period ∈ marks) ∧ x = .cancelled id m := by
  simp only [Cancelled, pair_sublist_concat]
  constructor
  · rintro ⟨s, delay, period, h | ⟨h, hx⟩⟩
    · exact Or.inl ⟨s, delay, period, h⟩
    · exact Or.inr ⟨⟨s, delay, period, h⟩, hx.symm⟩
  · rintro (⟨s, delay, period, h⟩ | ⟨⟨s, delay, period, h⟩, hx⟩)
    · exact ⟨s, delay, period, Or.inl h⟩
    · exact ⟨s, delay, period, Or.inr ⟨h, hx.symm⟩⟩

theorem cancelled_concat_of_ne {marks : List Mark} {x : Mark} {id : TaskId} (h : ∀ m, x ≠ .cancelled id m)
    (m : Moment) : Cancelled (marks ++ [x]) id m ↔ Cancelled marks id m := by
  simp [cancelled_concat, h m]

theorem mem_scheduled? {marks : List Mark} {id : TaskId} (h : id ∈ marks.filterMap Mark.scheduled?) :
    ∃ s delay period, .scheduled id s delay period ∈ marks := by
  obtain ⟨x, hx, hid⟩ := List.mem_filterMap.mp h
  cases x with
  | scheduled id' s delay period =>
    obtain rfl : id' = id := by simpa [Mark.scheduled?] using hid
    exact ⟨s, delay, period, hx⟩
  | cancelled id' m => simp [Mark.scheduled?] at hid
  | ran id' n => simp [Mark.scheduled?] at hid

theorem mem_ran? {marks : List Mark} {x : Nat × TaskId} : x ∈ marks.filterMap Mark.ran? ↔ .ran x.2 x.1 ∈ marks := by
  rw [List.mem_filterMap]
  constructor
  · rintro ⟨y, hy, hx⟩
    cases y with
    | scheduled id' s delay period => simp [Mark.ran?] at hx
    | cancelled id' m => simp [Mark.ran?] at hx
    | ran id' n =>
      obtain rfl : (n, id') = x := by simpa [Mark.ran?] using hx
      exact hy
  · exact fun h => ⟨_, h, rfl⟩

theorem Mark.Cancelled.scheduled {marks : List Mark} {id : TaskId} {m : Moment} (h : Cancelled marks id m) :
    ∃ s delay period, .scheduled id s delay period ∈ marks := by
  obtain ⟨s, delay, period, hs⟩ := h
  exact ⟨s, delay, period, hs.subset (List.mem_cons_self ..)⟩

/-! ### The law of one task -/

namespace Timetable

/-- With the tasks `ds` still on the agenda, the turn of a task in tick `n` has come. -/
def Passed (t : Timetable κ) (ds : List TaskId) (n : Nat) (id : TaskId) : Prop := n < t.now ∨ n = t.now ∧ id ∉ ds

/-- The law of a task that was scheduled in tick `s`. -/
structure Timely (t : Timetable κ) (marks : List Mark) (ds : List TaskId) (id : TaskId) (s delay period : Nat) :
    Prop where
  /-- It ran in every turn that it had before it was cancelled, and in no other. -/
  ran : ∀ n, .ran id n ∈ marks → Appointed s delay period n ∧ t.Passed ds n id
  turned : ∀ n, Appointed s delay period n → t.Passed ds n id → (.ran id n ∈ marks ↔ ¬ Stopped marks id n)
  /-- While it is scheduled, its next turn is the first appointment to come. -/
  present : ∀ a ∈ t.tasks, a.id = id → a.period = period ∧ Appointed s delay period a.next ∧
    ¬ t.Passed ds a.next id ∧ (∀ n, Appointed s delay period n → ¬ t.Passed ds n id → a.next ≤ n) ∧
    ∀ m, ¬ Cancelled marks id m
  absent : (∀ a ∈ t.tasks, a.id ≠ id) → ∀ n, Appointed s delay period n → ¬ t.Passed ds n id → Stopped marks id n

/-- The law of a timetable with the tasks `ds` still on the agenda. -/
structure Sound (t : Timetable κ) (marks : List Mark) (ds : List TaskId) : Prop where
  ascending : t.Ascending
  ids : (marks.filterMap Mark.scheduled?).Pairwise (·.val < ·.val)
  runs : (marks.filterMap Mark.ran?).Pairwise fun a b => a.1 < b.1 ∨ a.1 = b.1 ∧ a.2.val < b.2.val
  agenda : ds.Pairwise (·.val < ·.val)
  handed : ∀ id s delay period, .scheduled id s delay period ∈ marks → id.val < t.nextId
  expected : ∀ id ∈ ds, id.val < t.nextId
  due : InBounds marks → ∀ a ∈ t.tasks, a.id ∈ ds → a.next = t.now
  known : ∀ a ∈ t.tasks, ∃ s delay period, .scheduled a.id s delay period ∈ marks
  ran : ∀ id n, .ran id n ∈ marks → (∃ s delay period, .scheduled id s delay period ∈ marks) ∧
    (n < t.now ∨ n = t.now ∧ ∀ j ∈ ds, id.val < j.val)
  timely : InBounds marks →
    ∀ id s delay period, .scheduled id s delay period ∈ marks → t.Timely marks ds id s delay period

variable {t u : Timetable κ} {marks marks' : List Mark} {ds ds' : List TaskId} {id : TaskId} {s delay period : Nat}

/-- The law of a task is about nothing but this task. -/
theorem Timely.congr (h : t.Timely marks ds id s delay period) (htasks : ∀ a, a.id = id → (a ∈ u.tasks ↔ a ∈ t.tasks))
    (hran : ∀ n, .ran id n ∈ marks' ↔ .ran id n ∈ marks)
    (hcancelled : ∀ m, Cancelled marks' id m ↔ Cancelled marks id m)
    (hpassed : ∀ n, u.Passed ds' n id ↔ t.Passed ds n id) : u.Timely marks' ds' id s delay period := by
  have hstopped : ∀ n, Stopped marks' id n ↔ Stopped marks id n := fun n => by simp only [Stopped, hcancelled]
  refine ⟨fun n hn => ?_, fun n ha hn => ?_, fun a ha hid => ?_, fun hnone n ha hn => ?_⟩
  · obtain ⟨happ, hpass⟩ := h.ran n ((hran n).mp hn)
    exact ⟨happ, (hpassed n).mpr hpass⟩
  · rw [hran, hstopped]
    exact h.turned n ha ((hpassed n).mp hn)
  · obtain ⟨hperiod, hnext, hcome, hfirst, hnot⟩ := h.present a ((htasks a hid).mp ha) hid
    refine ⟨hperiod, hnext, fun hp => hcome ((hpassed _).mp hp), fun n hn hp => ?_, fun m hm => ?_⟩
    · exact hfirst n hn fun hp' => hp ((hpassed n).mpr hp')
    · exact hnot m ((hcancelled m).mp hm)
  · rw [hstopped]
    exact h.absent (fun a ha hid => hnone a ((htasks a hid).mpr ha) hid) n ha fun hp => hn ((hpassed n).mpr hp)

/-- A task that is still scheduled had no cancellation, so it runs in its turn, and then it leaves or waits for the
    next appointment. -/
theorem Timely.take {a : Appointment κ} (h : t.Timely marks (a.id :: ds) a.id s delay period) (ha : a ∈ t.tasks)
    (hdue : a.next = t.now) (hds : a.id ∉ ds) (hnow : u.now = t.now)
    (htasks : ∀ b, b ∈ u.tasks ↔ b ∈ t.tasks ∧ b.id ≠ a.id ∨ a.period ≠ 0 ∧ b = { a with next := t.now + a.period }) :
    u.Timely (marks ++ [.ran a.id t.now]) ds a.id s delay period := by
  obtain ⟨rfl, happ, -, -, hnot⟩ := h.present a ha rfl
  rw [hdue] at happ
  have hstopped : ∀ n, ¬ Stopped (marks ++ [.ran a.id t.now]) a.id n := by
    rintro n ⟨m, hm, -⟩
    exact hnot m ((cancelled_concat_of_ne (by simp) m).mp hm)
  have hpassed : ∀ n, u.Passed ds n a.id ↔ n ≤ t.now := fun n => by
    simp [Passed, hnow, hds, Nat.le_iff_lt_or_eq]
  have hearlier : ∀ n, t.Passed (a.id :: ds) n a.id ↔ n < t.now := fun n => by simp [Passed]
  refine ⟨fun n hn => ?_, fun n hn hp => ?_, fun b hb hid => ?_, fun hnone n hn hp => ?_⟩
  · rw [hpassed]
    rcases List.mem_append.mp hn with hn | hn
    · obtain ⟨hn, hp⟩ := h.ran n hn
      exact ⟨hn, Nat.le_of_lt ((hearlier n).mp hp)⟩
    · obtain rfl : n = t.now := by simpa using hn
      exact ⟨happ, Nat.le_refl _⟩
  · refine iff_of_true ?_ (hstopped n)
    rcases Nat.lt_or_eq_of_le ((hpassed n).mp hp) with hlt | rfl
    · refine List.mem_append_left _ ((h.turned n hn ((hearlier n).mpr hlt)).mpr ?_)
      rintro ⟨m, hm, -⟩
      exact hnot m hm
    · exact List.mem_append_right _ (List.mem_singleton_self _)
  · obtain ⟨hperiod, rfl⟩ : a.period ≠ 0 ∧ b = { a with next := t.now + a.period } := by
      rcases (htasks b).mp hb with ⟨-, hne⟩ | hb
      · exact absurd hid hne
      · exact hb
    refine ⟨rfl, happ.add_period hperiod, ?_, fun n hn hp => ?_, fun m hm => hnot m ?_⟩
    · rw [hpassed]
      show ¬ t.now + a.period ≤ t.now
      omega
    · rw [hpassed] at hp
      exact (happ.add_period_le hn (Nat.lt_of_not_le hp)).2
    · exact (cancelled_concat_of_ne (by simp) m).mp hm
  · rw [hpassed] at hp
    obtain ⟨hperiod, -⟩ := happ.add_period_le hn (Nat.lt_of_not_le hp)
    exact absurd rfl (hnone { a with next := t.now + a.period } ((htasks _).mpr (Or.inr ⟨hperiod, rfl⟩)))

/-- Someone is at work in a turn between those that have come and those on the agenda, or outside of all turns. -/
def Placed (t : Timetable κ) (marks : List Mark) (ds : List TaskId) (turn : Option TaskId) : Prop :=
  turn = none ∧ ds = [] ∨
    ∃ j, turn = some j ∧ (∀ i, .ran i t.now ∈ marks → i.val ≤ j.val) ∧ ∀ i ∈ ds, j.val < i.val

theorem Placed.before_of_not_passed {turn : Option TaskId} (h : t.Placed marks ds turn) {n : Nat}
    (hp : ¬ t.Passed ds n id) : Moment.Before ⟨t.now, turn⟩ n id := by
  have hcome : t.now < n ∨ t.now = n ∧ id ∈ ds := by
    rcases Nat.lt_trichotomy n t.now with hlt | heq | hgt
    · exact absurd (Or.inl hlt) hp
    · by_cases hid : id ∈ ds
      · exact Or.inr ⟨heq.symm, hid⟩
      · exact absurd (Or.inr ⟨heq, hid⟩) hp
    · exact Or.inl hgt
  rcases hcome with hlt | ⟨rfl, hid⟩
  · exact Or.inl hlt
  · rcases h with ⟨-, rfl⟩ | ⟨j, rfl, -, hlt⟩
    · simp at hid
    · exact Or.inr ⟨rfl, j, rfl, hlt id hid⟩

theorem Placed.not_before_of_ran {turn : Option TaskId} (h : t.Placed marks ds turn) {n : Nat} (hp : t.Passed ds n id)
    (hn : .ran id n ∈ marks) : ¬ Moment.Before ⟨t.now, turn⟩ n id := by
  have hle : n ≤ t.now := by
    rcases hp with hp | ⟨hp, -⟩
    · exact Nat.le_of_lt hp
    · exact Nat.le_of_eq hp
  rintro (hlt | ⟨rfl, i, hi, hlt⟩)
  · exact Nat.not_lt_of_le hle hlt
  · rcases h with ⟨rfl, -⟩ | ⟨j, rfl, hlast, -⟩
    · simp at hi
    · obtain rfl : j = i := by simpa using hi
      exact Nat.not_lt_of_le (hlast id hn) hlt

theorem Placed.congr {turn : Option TaskId} (h : t.Placed marks ds turn) (hnow : u.now = t.now)
    (hran : ∀ i n, .ran i n ∈ marks' → .ran i n ∈ marks) : u.Placed marks' ds turn := by
  refine h.imp_right fun ⟨j, hj, hlast, hfirst⟩ => ⟨j, hj, fun i hi => hlast i ?_, hfirst⟩
  rw [hnow] at hi
  exact hran i _ hi

/-! ### Every operation keeps the law -/

namespace Sound

theorem start : Sound ({} : Timetable κ) [] [] where
  ascending := List.Pairwise.nil
  ids := List.Pairwise.nil
  runs := List.Pairwise.nil
  agenda := List.Pairwise.nil
  handed _ _ _ _ h := by simp at h
  expected _ h := by simp at h
  due _ _ h := by simp at h
  known _ h := by simp at h
  ran _ _ h := by simp at h
  timely _ _ _ _ _ h := by simp at h

theorem lt_nextId (h : t.Sound marks ds) {a : Appointment κ} (ha : a ∈ t.tasks) : a.id.val < t.nextId := by
  obtain ⟨s, delay, period, hs⟩ := h.known a ha
  exact h.handed _ _ _ _ hs

theorem schedule (h : t.Sound marks ds) (job : κ) (delay period : Nat) :
    (t.schedule job delay period).2.Sound (marks ++ [.scheduled ⟨t.nextId⟩ t.now delay period]) ds := by
  have hnew : ∀ s delay period, .scheduled ⟨t.nextId⟩ s delay period ∉ marks := fun s delay period hs =>
    Nat.lt_irrefl _ (h.handed _ _ _ _ hs)
  have hagenda : (⟨t.nextId⟩ : TaskId) ∉ ds := fun hd => Nat.lt_irrefl _ (h.expected _ hd)
  have htasks : ∀ a, a ∈ (t.schedule job delay period).2.tasks ↔
      a ∈ t.tasks ∨ a = ⟨⟨t.nextId⟩, job, Tick.later t.now (max delay 1), period⟩ := fun a => by
    simp [Timetable.schedule]
  have hcancelled : ∀ id m,
      Cancelled (marks ++ [.scheduled ⟨t.nextId⟩ t.now delay period]) id m ↔ Cancelled marks id m :=
    fun id => cancelled_concat_of_ne (by simp)
  have hold : ∀ {id s d p}, .scheduled id s d p ∈ marks ++ [.scheduled ⟨t.nextId⟩ t.now delay period] →
      .scheduled id s d p ∈ marks ∨ id = ⟨t.nextId⟩ ∧ s = t.now ∧ d = delay ∧ p = period := fun hs => by simpa using hs
  refine ⟨h.ascending.schedule (fun a => h.lt_nextId) job delay period, ?_, ?_, h.agenda, ?_, ?_, ?_, ?_, ?_, ?_⟩
  · rw [List.filterMap_append]
    refine List.pairwise_append.mpr ⟨h.ids, List.pairwise_singleton _ _, fun i hi j hj => ?_⟩
    obtain rfl := List.mem_singleton.mp hj
    obtain ⟨s, d, p, hs⟩ := mem_scheduled? hi
    exact h.handed _ _ _ _ hs
  · simpa [List.filterMap_append, List.filterMap_cons, Mark.ran?] using h.runs
  · intro id s d p hs
    rcases hold hs with hs | ⟨rfl, -⟩
    · exact Nat.lt_succ_of_lt (h.handed _ _ _ _ hs)
    · exact Nat.lt_succ_self _
  · exact fun id hid => Nat.lt_succ_of_lt (h.expected id hid)
  · intro hb a ha hd
    rcases (htasks a).mp ha with ha | rfl
    · exact h.due hb.of_append a ha hd
    · exact absurd hd hagenda
  · intro a ha
    rcases (htasks a).mp ha with ha | rfl
    · obtain ⟨s, d, p, hs⟩ := h.known a ha
      exact ⟨s, d, p, List.mem_append_left _ hs⟩
    · exact ⟨t.now, delay, period, List.mem_append_right _ (List.mem_singleton_self _)⟩
  · intro id n hn
    obtain ⟨⟨s, d, p, hs⟩, hwhen⟩ := h.ran id n (by simpa using hn)
    exact ⟨⟨s, d, p, List.mem_append_left _ hs⟩, hwhen⟩
  · intro hb id s d p hs
    rcases hold hs with hs | ⟨rfl, rfl, rfl, rfl⟩
    · have hne : id ≠ ⟨t.nextId⟩ := fun heq => hnew _ _ _ (heq ▸ hs)
      refine (h.timely hb.of_append _ _ _ _ hs).congr (fun a ha => ?_) (by simp) (hcancelled id) fun _ => Iff.rfl
      rw [htasks, or_iff_left]
      rintro rfl
      exact hne ha.symm
    · rw [Tick.later_of_lt (hb _ _ _ _ hs).1] at htasks
      -- Nothing can have happened to a task that was not there.
      have hcome : ∀ n, Appointed t.now d p n → ¬ (t.schedule job d p).2.Passed ds n ⟨t.nextId⟩ := fun n hn hp => by
        have hlt := hn.lt
        rcases hp with hp | ⟨hp, -⟩
        · exact Nat.lt_asymm hp hlt
        · exact Nat.ne_of_gt hlt hp
      have hran : ∀ n, .ran ⟨t.nextId⟩ n ∉ marks := fun n hn => by
        obtain ⟨⟨s, d, p, hs⟩, -⟩ := h.ran _ _ hn
        exact hnew _ _ _ hs
      refine ⟨fun n hn => absurd (by simpa using hn) (hran n), fun n hn hp => absurd hp (hcome n hn), ?_, ?_⟩
      · intro a ha hid
        obtain rfl : a = ⟨⟨t.nextId⟩, job, t.now + max d 1, p⟩ := by
          rcases (htasks a).mp ha with ha | ha
          · have hlt := h.lt_nextId ha
            rw [hid] at hlt
            exact absurd hlt (Nat.lt_irrefl _)
          · exact ha
        refine ⟨rfl, .first _ _ _, hcome _ (.first _ _ _), fun n hn _ => ?_, fun m hm => ?_⟩
        · obtain ⟨k, rfl, -⟩ := hn
          exact Nat.le_add_right _ _
        · obtain ⟨s', d', p', hs'⟩ := ((hcancelled _ m).mp hm).scheduled
          exact hnew _ _ _ hs'
      · exact fun hnone => absurd rfl (hnone _ ((htasks _).mpr (Or.inr rfl)))

theorem cancel (h : t.Sound marks ds) {turn : Option TaskId} (hturn : t.Placed marks ds turn) (id : TaskId) :
    (t.cancel id).Sound (marks ++ [.cancelled id ⟨t.now, turn⟩]) ds := by
  have htasks : ∀ a, a ∈ (t.cancel id).tasks ↔ a ∈ t.tasks ∧ a.id ≠ id := fun a => by simp [Timetable.cancel]
  have hmem : ∀ {id' s d p}, .scheduled id' s d p ∈ marks ++ [.cancelled id ⟨t.now, turn⟩] →
      .scheduled id' s d p ∈ marks := fun hs => by simpa using hs
  refine ⟨h.ascending.cancel id, ?_, ?_, h.agenda, fun _ _ _ _ hs => h.handed _ _ _ _ (hmem hs), h.expected,
    ?_, ?_, ?_, ?_⟩
  · simpa [List.filterMap_append, List.filterMap_cons, Mark.scheduled?] using h.ids
  · simpa [List.filterMap_append, List.filterMap_cons, Mark.ran?] using h.runs
  · exact fun hb a ha hd => h.due hb.of_append a ((htasks a).mp ha).1 hd
  · intro a ha
    obtain ⟨s, d, p, hs⟩ := h.known a ((htasks a).mp ha).1
    exact ⟨s, d, p, List.mem_append_left _ hs⟩
  · intro id' n hn
    obtain ⟨⟨s, d, p, hs⟩, hwhen⟩ := h.ran id' n (by simpa using hn)
    exact ⟨⟨s, d, p, List.mem_append_left _ hs⟩, hwhen⟩
  · intro hb id' s d p hs
    have hlaw := h.timely hb.of_append _ _ _ _ (hmem hs)
    by_cases hid : id' = id
    · subst hid
      have hcancelled : ∀ m, Cancelled (marks ++ [.cancelled id' ⟨t.now, turn⟩]) id' m ↔
          Cancelled marks id' m ∨ m = ⟨t.now, turn⟩ := fun m => by
        rw [cancelled_concat]
        refine or_congr_right ⟨fun hm => ?_, fun hm => ⟨⟨s, d, p, hmem hs⟩, by rw [hm]⟩⟩
        simpa using hm.2.symm
      have hstopped : ∀ n, Stopped (marks ++ [.cancelled id' ⟨t.now, turn⟩]) id' n ↔
          Stopped marks id' n ∨ Moment.Before ⟨t.now, turn⟩ n id' := fun n => by
        simp [Stopped, hcancelled, or_and_right, exists_or]
      -- The turns that have come are left as they were, and those to come are stopped from now on.
      refine ⟨fun n hn => hlaw.ran n (by simpa using hn), fun n ha hp => ?_, fun a ha hid => ?_, fun _ n _ hp => ?_⟩
      · rw [hstopped, not_or]
        have hran : .ran id' n ∈ marks → ¬ Moment.Before ⟨t.now, turn⟩ n id' := fun hn => hturn.not_before_of_ran hp hn
        constructor
        · intro hn
          have hn : .ran id' n ∈ marks := by simpa using hn
          exact ⟨(hlaw.turned n ha hp).mp hn, hran hn⟩
        · intro hn
          exact List.mem_append_left _ ((hlaw.turned n ha hp).mpr hn.1)
      · exact absurd hid ((htasks a).mp ha).2
      · exact (hstopped n).mpr (Or.inr (hturn.before_of_not_passed hp))
    · refine hlaw.congr (fun a ha => ?_) (by simp) (cancelled_concat_of_ne ?_) fun _ => Iff.rfl
      · rw [htasks, and_iff_left]
        rw [ha]
        exact hid
      · simpa using fun heq => absurd heq.symm hid

/-- A task that is still scheduled has its turn. -/
theorem take (h : t.Sound marks (id :: ds)) {job : κ} (ht : t.take id = some (job, u)) :
    u.Sound (marks ++ [.ran id t.now]) ds := by
  obtain ⟨a, ha, rfl, rfl, hnow, hnext, hascending, htasks⟩ := mem_tasks_take h.ascending ht
  obtain ⟨hfirst, hagenda⟩ := List.pairwise_cons.mp h.agenda
  have hmem : ∀ {id s d p}, .scheduled id s d p ∈ marks ++ [.ran a.id t.now] → .scheduled id s d p ∈ marks :=
    fun hs => by simpa using hs
  have hcancelled : ∀ id m, Cancelled (marks ++ [.ran a.id t.now]) id m ↔ Cancelled marks id m :=
    fun id => cancelled_concat_of_ne (by simp)
  have hpassed : ∀ n id, id ≠ a.id → (u.Passed ds n id ↔ t.Passed (a.id :: ds) n id) := fun n id hid => by
    simp [Passed, hnow, hid]
  refine ⟨hascending, ?_, ?_, hagenda, ?_, ?_, ?_, ?_, ?_, ?_⟩
  · simpa [List.filterMap_append, List.filterMap_cons, Mark.scheduled?] using h.ids
  · rw [List.filterMap_append]
    refine List.pairwise_append.mpr ⟨h.runs, List.pairwise_singleton _ _, fun x hx y hy => ?_⟩
    obtain rfl := List.mem_singleton.mp hy
    rcases (h.ran _ _ (mem_ran?.mp hx)).2 with hlt | ⟨heq, hlt⟩
    · exact Or.inl hlt
    · exact Or.inr ⟨heq, hlt _ (List.mem_cons_self ..)⟩
  · intro id s d p hs
    rw [hnext]
    exact h.handed _ _ _ _ (hmem hs)
  · intro id hid
    rw [hnext]
    exact h.expected id (List.mem_cons_of_mem _ hid)
  · intro hb c hc hd
    rw [hnow]
    rcases (htasks c).mp hc with ⟨hc, -⟩ | ⟨-, rfl⟩
    · exact h.due hb.of_append c hc (List.mem_cons_of_mem _ hd)
    · exact absurd (hfirst _ hd) (Nat.lt_irrefl _)
  · intro b hb
    obtain ⟨c, hc, hid⟩ : ∃ c ∈ t.tasks, c.id = b.id := by
      rcases (htasks b).mp hb with ⟨hb, -⟩ | ⟨-, rfl⟩
      · exact ⟨b, hb, rfl⟩
      · exact ⟨a, ha, rfl⟩
    obtain ⟨s, d, p, hs⟩ := h.known c hc
    exact ⟨s, d, p, List.mem_append_left _ (hid ▸ hs)⟩
  · intro id n hn
    rw [hnow]
    rcases List.mem_append.mp hn with hn | hn
    · obtain ⟨⟨s, d, p, hs⟩, hwhen⟩ := h.ran id n hn
      exact ⟨⟨s, d, p, List.mem_append_left _ hs⟩, hwhen.imp_right fun hw =>
        ⟨hw.1, fun j hj => hw.2 j (List.mem_cons_of_mem _ hj)⟩⟩
    · obtain ⟨rfl, rfl⟩ : id = a.id ∧ n = t.now := by simpa using hn
      obtain ⟨s, d, p, hs⟩ := h.known a ha
      exact ⟨⟨s, d, p, List.mem_append_left _ hs⟩, Or.inr ⟨rfl, hfirst⟩⟩
  · intro hb id s d p hs
    have hlaw := h.timely hb.of_append _ _ _ _ (hmem hs)
    by_cases hid : id = a.id
    · subst hid
      have hdue : a.next = t.now := h.due hb.of_append a ha (List.mem_cons_self ..)
      have hran : Mark.ran a.id t.now ∈ marks ++ [.ran a.id t.now] := by simp
      refine hlaw.take ha hdue (fun hd => Nat.lt_irrefl _ (hfirst _ hd)) hnow fun c => (htasks c).trans ?_
      refine or_congr_right (and_congr_right fun hp => ?_)
      obtain ⟨rfl, -⟩ := hlaw.present a ha rfl
      rw [Tick.later_of_lt ((hb _ _ _ _ hs).2 hp _ hran)]
    · refine hlaw.congr (fun c hc => ?_) (by simp [hid]) (hcancelled id) fun n => hpassed n id hid
      rw [htasks]
      constructor
      · rintro (⟨hmem, -⟩ | ⟨-, rfl⟩)
        · exact hmem
        · exact absurd hc.symm hid
      · exact fun hmem => Or.inl ⟨hmem, hc ▸ hid⟩

/-- A task that was cancelled earlier in the tick has no turn. -/
theorem skip (h : t.Sound marks (id :: ds)) (ht : t.take id = none) : t.Sound marks ds := by
  have hgone := take_eq_none_iff.mp ht
  obtain ⟨hfirst, hagenda⟩ := List.pairwise_cons.mp h.agenda
  refine ⟨h.ascending, h.ids, h.runs, hagenda, h.handed, fun i hi => h.expected i (List.mem_cons_of_mem _ hi),
    fun hb a ha hd => h.due hb a ha (List.mem_cons_of_mem _ hd), h.known, fun i n hn => ?_, fun hb i s d p hs => ?_⟩
  · obtain ⟨hs, hwhen⟩ := h.ran i n hn
    exact ⟨hs, hwhen.imp_right fun hw => ⟨hw.1, fun j hj => hw.2 j (List.mem_cons_of_mem _ hj)⟩⟩
  · have hlaw := h.timely hb _ _ _ _ hs
    have hmono : ∀ n, t.Passed (id :: ds) n i → t.Passed ds n i := fun n hp =>
      hp.imp_right fun hp => ⟨hp.1, fun hd => hp.2 (List.mem_cons_of_mem _ hd)⟩
    refine ⟨fun n hn => (hlaw.ran n hn).imp_right (hmono n), fun n ha hp => ?_, fun a ha hid => ?_, ?_⟩
    · by_cases hold : t.Passed (id :: ds) n i
      · exact hlaw.turned n ha hold
      · -- This is the turn that passes now.
        have hi : i = id := by
          by_contra hne
          exact hold (hp.imp_right fun hp => ⟨hp.1, by simp [hne, hp.2]⟩)
        subst hi
        exact iff_of_false (fun hn => hold (hlaw.ran n hn).2) (not_not_intro (hlaw.absent hgone n ha hold))
    · obtain ⟨hperiod, hnext, hcome, hleast, hnot⟩ := hlaw.present a ha hid
      have hne : i ≠ id := fun heq => hgone a ha (hid.trans heq)
      refine ⟨hperiod, hnext, fun hp => hcome ?_, fun n hn hp => hleast n hn fun hp' => hp (hmono n hp'), hnot⟩
      exact hp.imp_right fun hp => ⟨hp.1, by simp [hne, hp.2]⟩
    · exact fun hnone n ha hp => hlaw.absent hnone n ha fun hp' => hp (hmono n hp')

/-- A new tick begins, with the tasks whose turn has come. -/
theorem advance (h : t.Sound marks []) : t.advance.Sound marks t.advance.due := by
  have hold : ∀ n id, t.Passed [] n id ↔ n < t.now + 1 := fun n id => by
    simp only [Passed, List.not_mem_nil, not_false_eq_true, and_true]
    omega
  have hmono : ∀ n id, t.Passed [] n id → t.advance.Passed t.advance.due n id := fun n id hp =>
    Or.inl ((hold n id).mp hp)
  have hcome : InBounds marks → ∀ a ∈ t.tasks, t.now < a.next := fun hb a ha => by
    obtain ⟨s, d, p, hs⟩ := h.known a ha
    obtain ⟨-, -, hcome, -⟩ := (h.timely hb _ _ _ _ hs).present a ha rfl
    rw [hold] at hcome
    omega
  have hdue : InBounds marks → ∀ a ∈ t.tasks, (a.id ∈ t.advance.due ↔ a.next = t.now + 1) := fun hb a ha => by
    have hlt := hcome hb a ha
    constructor
    · intro hd
      obtain ⟨b, hb, hid⟩ := List.mem_map.mp hd
      obtain ⟨hb, hle⟩ := List.mem_filter.mp hb
      obtain rfl := h.ascending.eq_of_id_eq hb ha hid
      have hle : b.next ≤ t.now + 1 := of_decide_eq_true hle
      omega
    · intro hnext
      exact List.mem_map.mpr ⟨a, List.mem_filter.mpr ⟨ha, by simp [Timetable.advance, hnext]⟩, rfl⟩
  refine ⟨h.ascending, h.ids, h.runs, ?_, h.handed, fun i hi => ?_, fun hb a ha hd => (hdue hb a ha).mp hd,
    h.known, fun i n hn => ?_, fun hb i s d p hs => ?_⟩
  · exact List.pairwise_map.mpr (h.ascending.sublist List.filter_sublist)
  · obtain ⟨a, ha, rfl⟩ := List.mem_map.mp hi
    exact h.lt_nextId (List.mem_of_mem_filter ha)
  · obtain ⟨hs, hwhen⟩ := h.ran i n hn
    refine ⟨hs, Or.inl ?_⟩
    show n < t.now + 1
    omega
  · have hlaw := h.timely hb _ _ _ _ hs
    refine ⟨fun n hn => (hlaw.ran n hn).imp_right (hmono n i), fun n ha hp => ?_, fun a ha hid => ?_, ?_⟩
    · by_cases hpast : t.Passed [] n i
      · exact hlaw.turned n ha hpast
      · refine iff_of_false (fun hn => hpast (hlaw.ran n hn).2) (not_not_intro (hlaw.absent ?_ n ha hpast))
        -- A scheduled task would be due, since its turn is the first appointment to come.
        rintro a htask rfl
        obtain ⟨-, -, -, hleast, -⟩ := hlaw.present a htask rfl
        have hlt := hcome hb a htask
        have hle := hleast n ha hpast
        rw [hold] at hpast
        rcases hp with hp | ⟨rfl, hnot⟩
        · exact hpast hp
        · exact hnot ((hdue hb a htask).mpr (Nat.le_antisymm hle hlt))
    · obtain ⟨hperiod, hnext, -, hleast, hnot⟩ := hlaw.present a ha hid
      refine ⟨hperiod, hnext, ?_, fun n hn hp => hleast n hn fun hp' => hp (hmono n i hp'), hnot⟩
      rintro (hlt | ⟨heq, hnot⟩)
      · exact Nat.lt_irrefl _ (Nat.lt_of_lt_of_le hlt (hcome hb a ha))
      · exact hnot (hid ▸ (hdue hb a ha).mpr heq)
    · exact fun hnone n ha hp => hlaw.absent hnone n ha fun hp' => hp (hmono n i hp')

end Sound
end Timetable
end Fray
