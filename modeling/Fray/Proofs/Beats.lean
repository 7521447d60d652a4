import Fray.Engine.World

/-! The life of a channelled effect, beat by beat. Which beats a stretch of it can have follows from where the effect
    stood before and stands after. -/

namespace Fray

/-- What happens to a channelled effect. -/
inductive Beat where
  /-- It was accepted to be started. -/
  | begun
  /-- Its skill entered the casting set. -/
  | entered
  | started
  /-- The listeners were told that it began. -/
  | announced
  /-- The scheduler answered with its task. -/
  | scheduled (task : TaskId)
  | pulsed
  | ended
  /-- It was told that it ended. -/
  | finished
  /-- Its skill left the casting set. -/
  | left
  /-- The listeners were told that it ended. -/
  | retired
  deriving DecidableEq

namespace Beat

/-- The effect itself is called. -/
def isCall : Beat → Bool
  | started | pulsed | finished => true
  | begun | entered | announced | scheduled _ | ended | left | retired => false

/-- The listeners are told. -/
def isHeralded : Beat → Bool
  | announced | retired => true
  | begun | entered | started | scheduled _ | pulsed | ended | finished | left => false

/-- How a start begins. -/
def opening : List Beat := [begun, entered, started]

/-- What ends an effect, in this order. -/
def teardown : List Beat := [ended, finished, left, retired]

/-- The beats but for the pulses. -/
def steady (bs : List Beat) : List Beat := bs.filter (· ≠ pulsed)

theorem steady_append (bs cs : List Beat) : steady (bs ++ cs) = steady bs ++ steady cs := List.filter_append _ _

theorem steady_cons_pulsed (bs : List Beat) : steady (pulsed :: bs) = steady bs := rfl

end Beat

/-! ### Stretches of a life -/

/-- What may happen to an effect between two phases, pulses apart. -/
inductive Phase.Passes : Phase → List Beat → Phase → Prop
  | rest (p : Phase) : Passes p [] p
  | torn : Passes .starting Beat.teardown (.ended none)
  | stopped (id : TaskId) : Passes (.running id) Beat.teardown (.ended (some id))
  | launched (id : TaskId) : Passes .idle (Beat.opening ++ [.announced, .scheduled id]) (.running id)
  /-- It ends while it is being started, before the listeners hear of its start. -/
  | unannounced (id : TaskId) :
    Passes .idle (Beat.opening ++ Beat.teardown ++ [.announced, .scheduled id]) (.ended (some id))
  /-- It ends before the scheduler has answered. -/
  | unscheduled (id : TaskId) :
    Passes .idle (Beat.opening ++ [.announced] ++ Beat.teardown ++ [.scheduled id]) (.ended (some id))
  | whole (id : TaskId) :
    Passes .idle (Beat.opening ++ [.announced, .scheduled id] ++ Beat.teardown) (.ended (some id))

theorem Phase.Passes.trans {p q s : Phase} {xs ys : List Beat} (h : p.Passes xs q) (h' : q.Passes ys s) :
    p.Passes (xs ++ ys) s := by
  cases h' with
  | rest => simpa using h
  | torn =>
    cases h with
    | rest => exact .torn
  | stopped id =>
    cases h with
    | rest => exact .stopped id
    | launched => exact .whole id
  | launched id =>
    cases h with
    | rest => exact .launched id
  | unannounced id =>
    cases h with
    | rest => exact .unannounced id
  | unscheduled id =>
    cases h with
    | rest => exact .unscheduled id
  | whole id =>
    cases h with
    | rest => exact .whole id

/-- A stretch of the life of an effect, with its pulses. -/
structure Stretch (p : Phase) (bs : List Beat) (q : Phase) : Prop where
  passes : p.Passes (Beat.steady bs) q
  first : p = .idle → bs = [] ∨ Beat.opening <+: bs
  settled : ∀ task, p = .ended task → bs = []

namespace Stretch

variable {p q s : Phase} {bs cs : List Beat} {id : TaskId}

theorem rest (p : Phase) : Stretch p [] p := ⟨.rest p, fun _ => Or.inl rfl, fun _ _ => rfl⟩

theorem eq_of_nil (h : Stretch p [] q) : q = p := by
  obtain ⟨h, -, -⟩ := h
  cases h
  rfl

theorem trans (h : Stretch p bs q) (h' : Stretch q cs s) : Stretch p (bs ++ cs) s where
  passes := by
    rw [Beat.steady_append]
    exact h.passes.trans h'.passes
  first hp := by
    rcases h.first hp with rfl | hbegins
    · exact h'.first (h.eq_of_nil.trans hp)
    · exact Or.inr (hbegins.trans (List.prefix_append _ _))
  settled task hp := by
    obtain rfl := h.settled task hp
    exact h'.settled task (h.eq_of_nil.trans hp)

/-- An effect that is active at the beginning of a turn may pulse, even if it ended when it was asked whether it
    should. -/
theorem pulse (hp : p = .starting ∨ ∃ id, p = .running id) (h : Stretch p bs q) (h' : Stretch q cs s) :
    Stretch p (bs ++ .pulsed :: cs) s where
  passes := by
    rw [Beat.steady_append, Beat.steady_cons_pulsed]
    exact h.passes.trans h'.passes
  first hidle := by
    subst hidle
    rcases hp with hp | ⟨id, hp⟩
    · cases hp
    · cases hp
  settled task hover := by
    subst hover
    rcases hp with hp | ⟨id, hp⟩
    · cases hp
    · cases hp

theorem torn : Stretch .starting Beat.teardown (.ended none) := ⟨.torn, fun h => (by cases h), fun _ h => (by cases h)⟩

theorem stopped (id : TaskId) : Stretch (.running id) Beat.teardown (.ended (some id)) :=
  ⟨.stopped id, fun h => (by cases h), fun _ h => (by cases h)⟩

theorem of_starting (h : Stretch .starting bs q) :
    q = .starting ∧ Beat.steady bs = [] ∨ q = .ended none ∧ Beat.steady bs = Beat.teardown := by
  have hpasses := h.passes
  generalize Beat.steady bs = xs at hpasses ⊢
  cases hpasses with
  | rest => exact Or.inl ⟨rfl, rfl⟩
  | torn => exact Or.inr ⟨rfl, rfl⟩

/-- A start, between whose beats the effect was left alone or torn down. -/
theorem launch (h : Stretch .starting bs p) (h' : Stretch p cs q) (id : TaskId) :
    q = .starting ∧ Stretch .idle (Beat.opening ++ bs ++ .announced :: cs ++ [.scheduled id]) (.running id) ∨
      q = .ended none ∧
        Stretch .idle (Beat.opening ++ bs ++ .announced :: cs ++ [.scheduled id]) (.ended (some id)) := by
  have hbegins : Beat.opening <+: Beat.opening ++ bs ++ .announced :: cs ++ [.scheduled id] := by
    rw [List.append_assoc, List.append_assoc]
    exact List.prefix_append _ _
  have hsteady : Beat.steady (Beat.opening ++ bs ++ .announced :: cs ++ [.scheduled id]) =
      Beat.opening ++ Beat.steady bs ++ .announced :: Beat.steady cs ++ [.scheduled id] := by
    simp only [Beat.steady_append]
    rfl
  rcases h.of_starting with ⟨rfl, hbs⟩ | ⟨rfl, hbs⟩
  · rcases h'.of_starting with ⟨rfl, hcs⟩ | ⟨rfl, hcs⟩
    · refine Or.inl ⟨rfl, ⟨?_, fun _ => Or.inr hbegins, fun _ h => (by cases h)⟩⟩
      rw [hsteady, hbs, hcs]
      exact .launched id
    · refine Or.inr ⟨rfl, ⟨?_, fun _ => Or.inr hbegins, fun _ h => (by cases h)⟩⟩
      rw [hsteady, hbs, hcs]
      exact .unscheduled id
  · obtain rfl := h'.settled none rfl
    refine Or.inr ⟨h'.eq_of_nil, ⟨?_, fun _ => Or.inr hbegins, fun _ h => (by cases h)⟩⟩
    rw [hsteady, hbs]
    exact .unannounced id

end Stretch

end Fray
