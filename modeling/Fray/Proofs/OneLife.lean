import Fray.Proofs.Appointments
import Fray.Proofs.Channelling

/-! A channelled effect has one life. It is started once and torn down once, whoever calls for that, from wherever, and
    however the scheduler goes about its first turn. -/

namespace Fray

open Act

/-- The beats of an effect since it was idle, and where it stands when no call is under way. -/
inductive Career : List Beat → Phase → Prop
  | idle : Career [] .idle
  | running {bs : List Beat} (id : TaskId) (h : Beat.steady bs = [.announced, .scheduled id]) :
    Career (Beat.opening ++ bs) (.running id)
  | ended {bs : List Beat} (id : TaskId)
    (h : Beat.steady bs = Beat.teardown ++ [.announced, .scheduled id] ∨
      Beat.steady bs = [.announced] ++ Beat.teardown ++ [.scheduled id] ∨
      Beat.steady bs = [.announced, .scheduled id] ++ Beat.teardown) :
    Career (Beat.opening ++ bs) (.ended (some id))

theorem Stretch.career {bs : List Beat} {p : Phase} (h : Stretch .idle bs p) : Career bs p := by
  rcases h.first rfl with rfl | ⟨rest, rfl⟩
  · obtain rfl := h.eq_of_nil
    exact .idle
  · have hpasses := h.passes
    rw [Beat.steady_append] at hpasses
    have hopening : Beat.steady Beat.opening = Beat.opening := rfl
    rw [hopening] at hpasses
    generalize hxs : Beat.opening ++ Beat.steady rest = xs at hpasses
    cases hpasses with
    | rest => simp [Beat.opening] at hxs
    | launched id => exact .running id (List.append_cancel_left hxs)
    | unannounced id =>
      rw [List.append_assoc] at hxs
      exact .ended id (Or.inl (List.append_cancel_left hxs))
    | unscheduled id =>
      rw [List.append_assoc, List.append_assoc] at hxs
      exact .ended id (Or.inr (Or.inl (List.append_cancel_left hxs)))
    | whole id =>
      rw [List.append_assoc] at hxs
      exact .ended id (Or.inr (Or.inr (List.append_cancel_left hxs)))

theorem Career.exists_task {bs : List Beat} {task : Option TaskId} (h : Career bs (.ended task)) :
    ∃ id, task = some id := by
  cases h with
  | ended id => exact ⟨id, rfl⟩

theorem Career.teardown_sublist {bs : List Beat} {task : Option TaskId} (h : Career bs (.ended task)) :
    Beat.teardown.Sublist bs := by
  cases h with
  | @ended bs id h =>
    have hsteady : (Beat.steady bs).Sublist bs := List.filter_sublist
    refine List.Sublist.trans ?_ (hsteady.trans (List.sublist_append_right _ _))
    rcases h with h | h | h
    · rw [h]
      exact List.sublist_append_left _ _
    · rw [h]
      exact (List.sublist_append_right _ _).trans (List.sublist_append_left _ _)
    · rw [h]
      exact List.sublist_append_right _ _

namespace Ground

variable {α η : Type}

/-- What an effect is in for. -/
structure OneLife (g : Ground α η) (l : Listeners α η) (e : Effects α η) (s : Scheduling α η) (r : ChannelRef) :
    Prop where
  /-- Wherever the call comes from, only an idle effect is started. -/
  refused : ∀ w, g.Tidy w → w.phase r ≠ .idle → ∀ delay period, ∃ fault : Fault α, fault.kind = .illegalState ∧
    answer (World.startChannel l e s r delay period).run w = .error fault ∧
    after (World.startChannel l e s r delay period).run w = w
  accepted : ∀ w, g.Tidy w → r < w.channels.size → w.phase r = .idle → ∀ delay period, ∃ id,
    answer (World.startChannel l e s r delay period).run w = .ok id ∧
    World.channelTask (after (World.startChannel l e s r delay period).run w) r = .ok id
  /-- Only an idle effect cannot be stopped, and one that has ended is left alone. -/
  stop : ∀ w, g.Tidy w → answer (World.stopChannel l e s r).run w =
    if w.phase r = .idle then .error .notScheduled else .ok ()
  kept : ∀ w, (w.phase r = .idle ∨ ∃ task, w.phase r = .ended task) → after (World.stopChannel l e s r).run w = w
  /-- At every point of every trail, nested calls included, it went on from every earlier one. -/
  onward : ∀ w t v, g.Trail w t v → (w.phase r).Onward (v.phase r)
  /-- Its beats, through any run. -/
  career : ∀ w v, g.Tidy w → w.phase r = .idle → g.Happens w v →
    ∃ t, g.Trail w t v ∧ (∀ p ∈ t, g.Tidy p.2) ∧ Career (beatsOf r t) (v.phase r) ∧
      g.log v.host = g.log w.host ++ (beats t).filter (·.2.isCall) ∧
      v.heralds = w.heralds ++ (beats t).filter (·.2.isHeralded)
  /-- Once it was stopped it has been torn down. -/
  stopped : ∀ w v, g.Tidy w → w.phase r = .idle → g.Happens w v → v.phase r ≠ .idle → r < v.channels.size →
    ∃ t id, g.Trail w t (after (World.stopChannel l e s r).run v) ∧ Beat.teardown.Sublist (beatsOf r t) ∧
      (after (World.stopChannel l e s r).run v).phase r = .ended (some id) ∧
      g.isCancelled (after (World.stopChannel l e s r).run v) id = true

variable {g : Ground α η} {l : Listeners α η} {e : Effects α η} {s : Scheduling α η} {r : ChannelRef} {w v : World α η}

theorem Happens.career (hg : g.Lawful) (h : g.Happens w v) (hw : g.Tidy w) (hr : w.phase r = .idle) :
    ∃ t, g.Trail w t v ∧ Career (beatsOf r t) (v.phase r) := by
  obtain ⟨t, ht, hstretch⟩ := h _ (conduct_closed hg) hw
  exact ⟨t, ht, (hr ▸ hstretch r).career⟩

theorem stop_answer (hw : g.Tidy w) :
    answer (World.stopChannel l e s r).run w = if w.phase r = .idle then .error .notScheduled else .ok () := by
  cases hphase : w.phase r with
  | idle => exact (World.run_stopChannel_idle l e s hphase).1
  | starting => exact (World.run_stopChannel_starting l e s hphase hw.running).1
  | running id => exact (World.run_stopChannel_running l e s hphase hw.running).1
  | ended task => exact (World.run_stopChannel_ended l e s hphase).1

theorem stop_ended (hg : g.Lawful) (hc : g.Company g.Conduct l e s) (hw : g.Tidy w) (hr : r < w.channels.size)
    (hphase : w.phase r ≠ .idle) : ∃ task, (after (World.stopChannel l e s r).run w).phase r = .ended task := by
  cases hp : w.phase r with
  | idle => exact absurd hp hphase
  | starting => exact ⟨_, (stop_starting hg hc hw hr hp).2⟩
  | running id => exact ⟨_, (stop_running hg hc hw hr hp).2⟩
  | ended task =>
    refine ⟨task, ?_⟩
    rw [(World.run_stopChannel_ended l e s hp).2]
    exact hp

/-- Every effect has one life. -/
theorem one_life (hg : g.Lawful) (hc : g.Company g.Happens l e s) (r : ChannelRef) : g.OneLife l e s r := by
  have hconduct : g.Company g.Conduct l e s := hc.mono fun _ _ h => h _ (conduct_closed hg)
  refine ⟨fun w hw hphase delay period => ?_, fun w hw hr hphase delay period => ?_, fun w hw => stop_answer hw,
    fun w hphase => ?_, fun w t v ht => ht.onward hg r, fun w v hw hphase h => ?_, fun w v hw hphase h hv hr => ?_⟩
  · exact World.run_startChannel_begun l e s delay period hphase hw.running
  · obtain ⟨id, bs, hanswer, htask, -, -⟩ := start_idle hg hconduct hw hr hphase delay period
    exact ⟨id, hanswer, htask⟩
  · rcases hphase with hphase | ⟨task, hphase⟩
    · exact (World.run_stopChannel_idle l e s hphase).2
    · exact (World.run_stopChannel_ended l e s hphase).2
  · obtain ⟨t, ht, hcareer⟩ := h.career hg hw hphase
    exact ⟨t, ht, (ht.tidy hg hw).1, hcareer, ht.records hg⟩
  · obtain ⟨t, ht, -⟩ := h.career hg hw hphase
    obtain ⟨task, hended⟩ := stop_ended hg hconduct (ht.tidy hg hw).2 hr hv
    -- The stop belongs to the run: the career is that of both together.
    obtain ⟨t', ht', hcareer⟩ := Happens.career hg (happens_closed.trans h (happens_closed.stop hc hr)) hw hphase
    rw [hended] at hcareer
    obtain ⟨id, rfl⟩ := hcareer.exists_task
    exact ⟨t', id, ht', hcareer.teardown_sublist, hended, (ht'.tidy hg hw).2.cancelled r id hended⟩

end Ground

/-! ### A fickle effect -/

/-- A host that keeps a record of its effects. -/
structure Hall where
  record : List (ChannelRef × Beat) := []

/-- Beside its effects, a hall has new ones made, and tasks entered and cancelled. -/
def hall : Ground Rat Hall where
  log := Hall.record
  handed w id := id.val < w.timetable.nextId
  isCancelled w id := w.timetable.isCancelled id
  other w v := (∃ id, v = after (Scheduling.ticked.cancel id) w) ∨
    (∃ j delay period, v = after (Scheduling.enter j delay period) w) ∨
    ∃ c, c.state < w.roster.states.size ∧ v = after (World.newChannel c) w

namespace Hall

def enter (x : ChannelRef × Beat) : Act Rat Hall Unit := modify fun w => { w with host := ⟨w.host.record ++ [x]⟩ }

/-- It does nothing but put its calls on record. -/
def plain : Effects Rat Hall where
  shouldEnd _ := pure false
  pulse r := enter (r, .pulsed)
  onStart r := enter (r, .started)
  onEnd r := enter (r, .finished)

/-- It starts itself while it is being started, and its first pulse stops it. -/
def fickle : Effects Rat Hall where
  shouldEnd _ := pure false
  pulse r := do
    enter (r, .pulsed)
    discard (World.stopChannel .silent plain .ticked r).run
  onStart r := do
    enter (r, .started)
    discard (World.startChannel .silent plain .ticked r 0 1).run
  onEnd r := enter (r, .finished)

/-- The first turn comes while the task is being scheduled. -/
def prompt : Scheduling Rat Hall :=
  .eager fun
    | .channel r => World.turnChannel .silent fickle .ticked r
    | .delayedCast _ _ => pure ()

/-- One effect, not yet started. -/
def start : World Rat Hall := after (World.newChannel default) (.new {} .empty)

variable {w v : World Rat Hall}

theorem recorded (x : ChannelRef × Beat) (w : World Rat Hall) : hall.Recorded x w (after (enter x) w) :=
  ⟨⟨w.host.record ++ [x]⟩, rfl, rfl, fun _ h => h, fun _ _ h => h⟩

theorem withdraws (id : TaskId) (w : World Rat Hall) : hall.Withdraws id w (after (Scheduling.ticked.cancel id) w) :=
  ⟨Or.inl ⟨id, rfl⟩, Timetable.isCancelled_iff.mpr fun a ha => by simpa using (List.mem_filter.mp ha).2⟩

theorem lawful : hall.Lawful where
  other := by
    rintro w v (⟨id, rfl⟩ | ⟨j, delay, period, rfl⟩ | ⟨c, -, rfl⟩)
    · refine ⟨⟨fun _ h => h, fun i _ hc => ?_⟩, rfl, fun _ => rfl, Nat.le_refl _, fun _ _ => rfl, rfl, rfl⟩
      exact Timetable.isCancelled_iff.mpr fun a ha => Timetable.isCancelled_iff.mp hc a (List.mem_filter.mp ha).1
    · refine ⟨⟨fun _ h => Nat.lt_succ_of_lt h, fun i hi hc => ?_⟩, rfl, fun _ => rfl, Nat.le_refl _, fun _ _ => rfl,
        rfl, rfl⟩
      refine Timetable.isCancelled_iff.mpr fun a ha => ?_
      rcases List.mem_append.mp ha with ha | ha
      · exact Timetable.isCancelled_iff.mp hc a ha
      · obtain rfl := List.mem_singleton.mp ha
        rintro rfl
        exact Nat.lt_irrefl _ hi
    · refine ⟨⟨fun _ h => h, fun _ _ h => h⟩, rfl, World.phase_newChannel c w, ?_, ?_, rfl, rfl⟩
      · simp [World.newChannel]
      · exact fun r hr => by rw [World.channel_newChannel c (Nat.ne_of_lt hr)]
  keeps _ htimetable :=
    ⟨fun _ h => by simpa [hall, htimetable] using h, fun _ _ h => by simpa [hall, htimetable] using h⟩

theorem plain_company : hall.Company hall.Happens .silent plain .ticked where
  shouldEnd _ w _ := Ground.happens_closed.refl w
  pulse r w _ := ⟨_, recorded (r, .pulsed) w, Ground.happens_closed.refl _⟩
  onStart r w _ := ⟨_, recorded (r, .started) w, Ground.happens_closed.refl _⟩
  onEnd r w _ := ⟨_, recorded (r, .finished) w, Ground.happens_closed.refl _⟩
  castStart _ _ _ w := Ground.happens_closed.refl w
  castEnd _ _ _ w := Ground.happens_closed.refl w
  schedule _ _ _ _ _ := ⟨Ground.happens_closed.other (Or.inr (Or.inl ⟨_, _, _, rfl⟩)), Nat.lt_succ_self _⟩
  cancel id w _ := withdraws id w

theorem fickle_company : hall.Company hall.Happens .silent fickle .ticked :=
  { plain_company with
    pulse := fun r w hr => ⟨_, recorded (r, .pulsed) w, Ground.happens_closed.stop plain_company hr⟩
    onStart := fun r w hr => ⟨_, recorded (r, .started) w,
      Ground.happens_closed.start (w := after (enter (r, .started)) w) plain_company hr 0 1⟩ }

theorem prompt_company : hall.Company hall.Happens .silent fickle prompt :=
  { fickle_company with
    schedule := fun r delay period w hr => by
      have henter : ∀ j delay period (v : World Rat Hall),
          hall.Happens v (after (Scheduling.enter j delay period) v) ∧
            hall.handed (after (Scheduling.enter j delay period) v) (answer (Scheduling.enter j delay period) v) :=
        fun j delay period v => ⟨Ground.happens_closed.other (Or.inr (Or.inl ⟨_, _, _, rfl⟩)), Nat.lt_succ_self _⟩
      by_cases hd : delay = 0
      · obtain ⟨h, hhanded⟩ := henter (.channel r) period period (after (World.turnChannel .silent fickle .ticked r) w)
        simp only [prompt, Scheduling.eager, hd, if_true]
        exact ⟨Ground.happens_closed.trans (Ground.happens_closed.turn fickle_company hr) h, hhanded⟩
      · simp only [prompt, Scheduling.eager, hd, if_false]
        exact henter (.channel r) delay period w }

/-- The fickle effect has one life. -/
theorem one_life_fickle : hall.Lawful ∧ hall.Company hall.Happens .silent fickle prompt ∧
    hall.OneLife .silent fickle prompt 0 ∧
    (after (World.startChannel .silent fickle prompt 0 0 1).run start).host.record =
      [(0, .started), (0, .pulsed), (0, .finished)] :=
  ⟨lawful, prompt_company, Ground.one_life lawful prompt_company 0, by decide +kernel⟩

end Hall
end Fray
