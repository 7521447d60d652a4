import Fray.Proofs.Punctuality

/-! Every point of a run observes the law of its timetable: between the orders, between the ticks, and within the
    turns, whatever the jobs schedule and cancel there. -/

namespace Fray

open Mark Timetable

namespace Diary

variable {ρ κ : Type} {c d e : Diary ρ κ} {ds : List TaskId} {id : TaskId}

/-- The law, with the tasks `ds` still on the agenda of the tick. -/
structure Observed (d : Diary ρ κ) (ds : List TaskId) : Prop where
  sound : d.table.Sound d.marks ds
  /-- Every job knows its id. -/
  named : ∀ a ∈ d.table.tasks, a.job.1 = a.id

/-- The law where someone is at work. -/
structure Lawful (d : Diary ρ κ) (ds : List TaskId) : Prop extends Observed d ds where
  placed : d.table.Placed d.marks ds d.turn

/-- Of a task that is scheduled no more, nothing is heard later. -/
structure Later (d e : Diary ρ κ) : Prop where
  nextId : d.table.nextId ≤ e.table.nextId
  marks : d.marks <+: e.marks
  gone : ∀ id : TaskId, id.val < d.table.nextId → (∀ a ∈ d.table.tasks, a.id ≠ id) →
    (∀ a ∈ e.table.tasks, a.id ≠ id) ∧ ∀ n, .ran id n ∈ e.marks → .ran id n ∈ d.marks

theorem Later.refl (d : Diary ρ κ) : Later d d := ⟨Nat.le_refl _, List.prefix_rfl, fun _ _ h => ⟨h, fun _ hn => hn⟩⟩

theorem Later.trans (h : Later c d) (h' : Later d e) : Later c e := by
  refine ⟨Nat.le_trans h.nextId h'.nextId, h.marks.trans h'.marks, fun id hid hgone => ?_⟩
  obtain ⟨hd, hran⟩ := h.gone id hid hgone
  obtain ⟨he, hran'⟩ := h'.gone id (Nat.lt_of_lt_of_le hid h.nextId) hd
  exact ⟨he, fun n hn => hran n (hran' n hn)⟩

theorem later_schedule (d : Diary ρ κ) (job : κ) (delay period : Nat) : Later d (d.schedule job delay period).2 := by
  refine ⟨Nat.le_succ _, List.prefix_append _ _, fun id hid hgone => ⟨fun a ha => ?_, fun n hn => ?_⟩⟩
  · rcases List.mem_append.mp ha with ha | ha
    · exact hgone a ha
    · obtain rfl := List.mem_singleton.mp ha
      rintro rfl
      exact Nat.lt_irrefl _ hid
  · simpa [Diary.schedule] using hn

theorem later_cancel (d : Diary ρ κ) (id : TaskId) : Later d (d.cancel id) := by
  refine ⟨Nat.le_refl _, List.prefix_append _ _, fun i _ hgone => ⟨fun a ha => ?_, fun n hn => ?_⟩⟩
  · exact hgone a (List.mem_of_mem_filter ha)
  · simpa [Diary.cancel] using hn

theorem Lawful.schedule (h : d.Lawful ds) (job : κ) (delay period : Nat) :
    (d.schedule job delay period).2.Lawful ds := by
  refine ⟨⟨h.sound.schedule _ delay period, fun a ha => ?_⟩, ?_⟩
  · rcases List.mem_append.mp ha with ha | ha
    · exact h.named a ha
    · obtain rfl := List.mem_singleton.mp ha
      rfl
  · exact h.placed.congr rfl fun i n hn => by simpa [Diary.schedule] using hn

theorem Lawful.cancel (h : d.Lawful ds) (id : TaskId) : (d.cancel id).Lawful ds := by
  refine ⟨⟨h.sound.cancel h.placed id, fun a ha => h.named a (List.mem_of_mem_filter ha)⟩, ?_⟩
  exact h.placed.congr rfl fun i n hn => by simpa [Diary.cancel] using hn

theorem Lawful.change (h : d.Lawful ds) (rest : ρ) : Lawful { d with rest } ds := ⟨⟨h.sound, h.named⟩, h.placed⟩

/-! ### Passages -/

/-- On the way from `d` to `e` the points `ps` are passed. -/
structure Passage (d : Diary ρ κ) (ps : List (Point ρ κ)) (e : Diary ρ κ) : Prop where
  law : ∀ p ∈ ps, p.diary.Lawful p.agenda
  start : ∀ p ∈ ps, Later d p.diary
  finish : ∀ p ∈ ps, Later p.diary e
  order : ps.Pairwise fun p q => Later p.diary q.diary
  whole : Later d e

namespace Passage

variable {ps qs : List (Point ρ κ)}

theorem nil (h : Later d e) : Passage d [] e :=
  ⟨fun _ hp => absurd hp List.not_mem_nil, fun _ hp => absurd hp List.not_mem_nil,
    fun _ hp => absurd hp List.not_mem_nil, List.Pairwise.nil, h⟩

theorem cons (h : d.Lawful ds) (hp : Passage d ps e) : Passage d (⟨d, ds⟩ :: ps) e where
  law := List.forall_mem_cons.mpr ⟨h, hp.law⟩
  start := List.forall_mem_cons.mpr ⟨Later.refl d, hp.start⟩
  finish := List.forall_mem_cons.mpr ⟨hp.whole, hp.finish⟩
  order := List.pairwise_cons.mpr ⟨hp.start, hp.order⟩
  whole := hp.whole

theorem append (hp : Passage c ps d) (hq : Passage d qs e) : Passage c (ps ++ qs) e where
  law := List.forall_mem_append.mpr ⟨hp.law, hq.law⟩
  start := List.forall_mem_append.mpr ⟨hp.start, fun q hmem => hp.whole.trans (hq.start q hmem)⟩
  finish := List.forall_mem_append.mpr ⟨fun p hmem => (hp.finish p hmem).trans hq.whole, hq.finish⟩
  order := List.pairwise_append.mpr
    ⟨hp.order, hq.order, fun p hmem q hmem' => (hp.finish p hmem).trans (hq.start q hmem')⟩
  whole := hp.whole.trans hq.whole

theorem of_later (h : Later c d) (hp : Passage d ps e) : Passage c ps e := by
  simpa using (nil h).append hp

end Passage

/-! ### A turn -/

/-- An errand leaves the time alone, and runs nothing. -/
theorem run_errand (job : Errand ρ κ) (d : Diary ρ κ) :
    (job.run d).table.now = d.table.now ∧ (job.run d).turn = d.turn ∧ (job.run d).runs = d.runs := by
  induction job generalizing d with
  | done => exact ⟨rfl, rfl, rfl⟩
  | look next ih => exact ih d d
  | change rest next ih => exact ih { d with rest }
  | schedule job delay period next ih =>
    obtain ⟨hnow, hturn, hruns⟩ := ih (d.schedule job delay period).1 (d.schedule job delay period).2
    refine ⟨hnow, hturn, hruns.trans ?_⟩
    simp [runs, Diary.schedule, List.filterMap_append, List.filterMap_cons, Mark.ran?]
  | cancel id next ih =>
    obtain ⟨hnow, hturn, hruns⟩ := ih (d.cancel id)
    refine ⟨hnow, hturn, hruns.trans ?_⟩
    simp [runs, Diary.cancel, List.filterMap_append, List.filterMap_cons, Mark.ran?]

theorem Lawful.errand (job : Errand ρ κ) (h : d.Lawful ds) :
    (job.run d).Lawful ds ∧ Passage d (job.points ds d) (job.run d) := by
  induction job generalizing d with
  | done => exact ⟨h, (Passage.nil (Later.refl d)).cons h⟩
  | look next ih =>
    obtain ⟨hlaw, hpass⟩ := ih d h
    exact ⟨hlaw, hpass.cons h⟩
  | change rest next ih =>
    obtain ⟨hlaw, hpass⟩ := ih (h.change rest)
    have hlater : Later d { d with rest } := ⟨Nat.le_refl _, List.prefix_rfl, fun _ _ h => ⟨h, fun _ hn => hn⟩⟩
    exact ⟨hlaw, (hpass.of_later hlater).cons h⟩
  | schedule job delay period next ih =>
    obtain ⟨hlaw, hpass⟩ := ih _ (h.schedule job delay period)
    exact ⟨hlaw, (hpass.of_later (later_schedule d job delay period)).cons h⟩
  | cancel id next ih =>
    obtain ⟨hlaw, hpass⟩ := ih (h.cancel id)
    exact ⟨hlaw, (hpass.of_later (later_cancel d id)).cons h⟩

theorem later_settle (d : Diary ρ κ) : Later d d.settle :=
  ⟨Nat.le_refl _, List.prefix_rfl, fun _ _ h => ⟨h, fun _ hn => hn⟩⟩

/-- A task that is still scheduled begins its turn. -/
theorem Observed.begin (h : d.Observed (id :: ds)) {job : TaskId × κ} {table : Timetable (TaskId × κ)}
    (ht : d.table.take id = some (job, table)) :
    job.1 = id ∧ Lawful ({ d with table }.begin job.1) ds ∧ Later d ({ d with table }.begin job.1) := by
  obtain ⟨a, ha, rfl, rfl, hnow, hnext, -, htasks⟩ := mem_tasks_take h.sound.ascending ht
  have hname := h.named a ha
  have hafter : ∀ b ∈ table.tasks, ∃ c ∈ d.table.tasks, c.id = b.id ∧ c.job = b.job := fun b hb => by
    rcases (htasks b).mp hb with ⟨hb, -⟩ | ⟨-, rfl⟩
    · exact ⟨b, hb, rfl, rfl⟩
    · exact ⟨a, ha, rfl, rfl⟩
  refine ⟨hname, ⟨⟨?_, fun b hb => ?_⟩, Or.inr ⟨a.id, ?_, fun i hi => ?_, ?_⟩⟩, ?_, ?_,
    fun i hi hgone => ⟨fun b hb => ?_, ?_⟩⟩
  · show table.Sound (d.marks ++ [.ran a.job.1 table.now]) ds
    rw [hname, hnow]
    exact h.sound.take ht
  · obtain ⟨c, hc, hid, hjob⟩ := hafter b hb
    rw [← hid, ← hjob]
    exact h.named c hc
  · exact congrArg some hname
  · have hi : .ran i table.now ∈ d.marks ∨ i = a.job.1 := by simpa [Diary.begin] using hi
    rcases hi with hi | rfl
    · rw [hnow] at hi
      rcases (h.sound.ran _ _ hi).2 with hlt | ⟨-, hlt⟩
      · exact absurd hlt (Nat.lt_irrefl _)
      · exact Nat.le_of_lt (hlt _ (List.mem_cons_self ..))
    · exact Nat.le_of_eq (congrArg TaskId.val hname)
  · exact (List.pairwise_cons.mp h.sound.agenda).1
  · exact Nat.le_of_eq hnext.symm
  · exact List.prefix_append _ _
  · obtain ⟨c, hc, hid, -⟩ := hafter b hb
    exact hid ▸ hgone c hc
  · intro n hn
    have hn : .ran i n ∈ d.marks ∨ i = a.job.1 ∧ n = table.now := by simpa [Diary.begin] using hn
    rcases hn with hn | ⟨rfl, -⟩
    · exact hn
    · exact absurd hname.symm (hgone a ha)

variable (script : κ → Errand ρ κ)

/-- The points within the turn of a task. -/
theorem Observed.turned (h : d.Observed (id :: ds)) (hturn : d.turn = none) :
    (turned script d id).Observed ds ∧ (turned script d id).turn = none ∧
      (turned script d id).table.now = d.table.now ∧
      Passage d (match d.table.take id with
        | none => []
        | some (job, table) => (script job.2).points ds ({ d with table }.begin job.1)) (turned script d id) ∧
      (turned script d id).runs =
        d.runs ++ if (d.table.take id).isSome then [(d.table.now, id)] else [] := by
  unfold Diary.turned
  cases ht : d.table.take id with
  | none => exact ⟨⟨h.sound.skip ht, h.named⟩, hturn, rfl, Passage.nil (Later.refl d), by simp⟩
  | some taken =>
    obtain ⟨job, table⟩ := taken
    obtain ⟨hname, hlaw, hlater⟩ := h.begin ht
    obtain ⟨hlaw', hpass⟩ := hlaw.errand (script job.2)
    obtain ⟨hnow, -, hruns⟩ := run_errand (script job.2) ({ d with table }.begin job.1)
    obtain ⟨a, -, -, -, hsame, -⟩ := mem_tasks_take h.sound.ascending ht
    refine ⟨⟨hlaw'.sound, hlaw'.named⟩, rfl, hnow.trans hsame, ?_, hruns.trans ?_⟩
    · simpa using (hpass.of_later hlater).append (Passage.nil (later_settle _))
    · simp [runs, Diary.begin, List.filterMap_append, Mark.ran?, hname, hsame]

/-- The turns of a tick: of the tasks on the agenda some run, in their order. -/
theorem Observed.turns (h : d.Observed ds) (hturn : d.turn = none) (count : Nat) :
    (ds.foldl (Diary.turned script) d).Observed [] ∧ (ds.foldl (Diary.turned script) d).turn = none ∧
      Passage d (turnPoints script ds d) (ds.foldl (Diary.turned script) d) ∧
      ∃ ran : List TaskId, ran.Sublist ds ∧
        ((ds.foldlM (Timetable.turn (perform script)) count).run d).1 = count + ran.length ∧
        (ds.foldl (Diary.turned script) d).runs = d.runs ++ ran.map (d.table.now, ·) := by
  induction ds generalizing d count with
  | nil => exact ⟨h, hturn, Passage.nil (Later.refl d), [], List.Sublist.refl _, rfl, by simp⟩
  | cons id ds ih =>
    obtain ⟨hobs, hturn', hnow, hpass, hruns⟩ := h.turned script hturn
    obtain ⟨hobs', hnone, hpass', ran, hsub, hcount, hruns'⟩ :=
      ih hobs hturn' (if (d.table.take id).isSome then count + 1 else count)
    refine ⟨hobs', hnone, hpass.append hpass', (if (d.table.take id).isSome then [id] else []) ++ ran, ?_, ?_, ?_⟩
    · split
      · exact hsub.cons_cons id
      · exact hsub.cons id
    · rw [List.foldlM_cons, StateT.run_bind, run_turn]
      refine hcount.trans ?_
      split
      · simp only [List.cons_append, List.nil_append, List.length_cons]
        omega
      · rfl
    · rw [List.foldl_cons, hruns', hruns, hnow]
      split <;> simp

/-! ### Ticks and orders -/

theorem later_opened (d : Diary ρ κ) : Later d d.opened :=
  ⟨Nat.le_refl _, List.prefix_rfl, fun _ _ h => ⟨h, fun _ hn => hn⟩⟩

theorem run_tick (d : Diary ρ κ) :
    d.tick script = (d.opened.table.due.foldlM (Timetable.turn (perform script)) 0).run d.opened := rfl

theorem tick_snd (d : Diary ρ κ) : (d.tick script).2 = d.opened.table.due.foldl (Diary.turned script) d.opened := by
  rw [run_tick, run_turns]

theorem advance_succ (count : Nat) (d : Diary ρ κ) :
    d.advance script (count + 1) = (d.tick script).2.advance script count := rfl

theorem Observed.tick (h : d.Observed []) (hturn : d.turn = none) :
    (d.tick script).2.Observed [] ∧ (d.tick script).2.turn = none ∧
      Passage d (tickPoints script d) (d.tick script).2 ∧
      ∃ ran : List TaskId, ran.Pairwise (·.val < ·.val) ∧ (d.tick script).1 = ran.length ∧
        (d.tick script).2.runs = d.runs ++ ran.map (d.table.now + 1, ·) := by
  have hopen : d.opened.Observed d.opened.table.due := ⟨h.sound.advance, h.named⟩
  obtain ⟨hobs, hnone, hpass, ran, hsub, hcount, hruns⟩ := hopen.turns script hturn 0
  rw [tick_snd]
  refine ⟨hobs, hnone, hpass.of_later (later_opened d), ran, hopen.sound.agenda.sublist hsub, ?_, hruns⟩
  rw [run_tick, hcount, Nat.zero_add]

theorem Observed.lawful (h : d.Observed []) (hturn : d.turn = none) : d.Lawful [] := ⟨h, Or.inl ⟨hturn, rfl⟩⟩

theorem Observed.advance (count : Nat) (h : d.Observed []) (hturn : d.turn = none) :
    (d.advance script count).Observed [] ∧ (d.advance script count).turn = none ∧
      Passage d (advancePoints script count d) (d.advance script count) := by
  induction count generalizing d with
  | zero => exact ⟨h, hturn, Passage.nil (Later.refl d)⟩
  | succ count ih =>
    obtain ⟨hobs, hnone, hpass, -⟩ := h.tick script hturn
    obtain ⟨hobs', hnone', hpass'⟩ := ih hobs hnone
    exact ⟨hobs', hnone', hpass.append (hpass'.cons (hobs.lawful hnone))⟩

theorem Observed.obey (h : d.Observed []) (hturn : d.turn = none) (o : Order ρ κ) :
    (obey script d o).Observed [] ∧ (obey script d o).turn = none ∧
      Passage d (orderPoints script d o) (obey script d o) := by
  have hlaw := h.lawful hturn
  cases o with
  | schedule job delay period =>
    exact ⟨(hlaw.schedule job delay period).toObserved, hturn, Passage.nil (later_schedule d job delay period)⟩
  | cancel id => exact ⟨(hlaw.cancel id).toObserved, hturn, Passage.nil (later_cancel d id)⟩
  | tick =>
    obtain ⟨hobs, hnone, hpass, -⟩ := h.tick script hturn
    exact ⟨hobs, hnone, hpass⟩
  | advance count => exact h.advance script count hturn
  | change rest =>
    exact ⟨(hlaw.change rest).toObserved, hturn,
      Passage.nil ⟨Nat.le_refl _, List.prefix_rfl, fun _ _ h => ⟨h, fun _ hn => hn⟩⟩⟩

theorem Observed.after (h : d.Observed []) (hturn : d.turn = none) (orders : List (Order ρ κ)) :
    (after script orders d).Observed [] ∧ (after script orders d).turn = none ∧
      Passage d (points script orders d) (after script orders d) := by
  induction orders generalizing d with
  | nil => exact ⟨h, hturn, (Passage.nil (Later.refl d)).cons (h.lawful hturn)⟩
  | cons o orders ih =>
    obtain ⟨hobs, hnone, hpass⟩ := h.obey script hturn o
    obtain ⟨hobs', hnone', hpass'⟩ := ih hobs hnone
    exact ⟨hobs', hnone', (hpass.append hpass').cons (h.lawful hturn)⟩

theorem observed_start (rest : ρ) : Observed ({ rest } : Diary ρ κ) [] := ⟨Sound.start, fun _ h => by simp at h⟩

end Diary
end Fray
