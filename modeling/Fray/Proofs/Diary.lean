import Fray.Proofs.Appointments

/-! A timetable that keeps a diary. Whatever is scheduled, cancelled or run is entered with its time, and a job is an
    errand: it may look at everything, schedule and cancel any tasks, and change the rest of the world. -/

namespace Fray

/-- A time of a run: the tick that began last, and the task whose turn it is. Outside of the turns it is nobody's. -/
structure Moment where
  tick : Nat
  turn : Option TaskId

/-- In tick `n` the turn of the task is still to come. -/
def Moment.Before (m : Moment) (n : Nat) (id : TaskId) : Prop :=
  m.tick < n ∨ m.tick = n ∧ ∃ j, m.turn = some j ∧ j.val < id.val

/-- An entry of a diary. -/
inductive Mark where
  | scheduled (id : TaskId) (tick delay period : Nat)
  | cancelled (id : TaskId) (moment : Moment)
  | ran (id : TaskId) (tick : Nat)

namespace Mark

def scheduled? : Mark → Option TaskId
  | scheduled id _ _ _ => some id
  | cancelled _ _ | ran _ _ => none

/-- The tick of a run, and the task that ran. -/
def ran? : Mark → Option (Nat × TaskId)
  | ran id n => some (n, id)
  | scheduled _ _ _ _ | cancelled _ _ => none

/-- No sum of ticks goes past the last one, neither where a task is scheduled nor where it moves on by its period. -/
def InBounds (marks : List Mark) : Prop :=
  ∀ id s delay period, .scheduled id s delay period ∈ marks →
    s + max delay 1 < Tick.bound ∧ (period ≠ 0 → ∀ n, .ran id n ∈ marks → n + period < Tick.bound)

theorem InBounds.of_append {marks marks' : List Mark} (h : InBounds (marks ++ marks')) : InBounds marks := by
  intro id s delay period hs
  obtain ⟨hfirst, hnext⟩ := h id s delay period (List.mem_append_left _ hs)
  exact ⟨hfirst, fun hp n hn => hnext hp n (List.mem_append_left _ hn)⟩

end Mark

/-! ### The diary -/

structure Diary (ρ κ : Type) where
  table : Timetable (TaskId × κ) := {}
  /-- The task whose turn it is. -/
  turn : Option TaskId := none
  /-- Oldest first. -/
  marks : List Mark := []
  /-- The rest of the world. -/
  rest : ρ

instance {ρ κ : Type} : HasTimetable (Diary ρ κ) (TaskId × κ) where
  timetable d := d.table
  setTimetable t d := { d with table := t }

/-- A point of a run: the diary there, and the due tasks whose turn is still to come in the tick. -/
structure Point (ρ κ : Type) where
  diary : Diary ρ κ
  agenda : List TaskId

/-- What a job does in its turn. -/
inductive Errand (ρ κ : Type) where
  | done
  | look (next : Diary ρ κ → Errand ρ κ)
  | change (rest : ρ) (next : Errand ρ κ)
  | schedule (job : κ) (delay period : Nat) (next : TaskId → Errand ρ κ)
  | cancel (id : TaskId) (next : Errand ρ κ)

/-- What may happen to a timetable from outside. -/
inductive Order (ρ κ : Type) where
  | schedule (job : κ) (delay period : Nat)
  | cancel (id : TaskId)
  | tick
  | advance (count : Nat)
  | change (rest : ρ)

namespace Diary

variable {ρ κ : Type} (d : Diary ρ κ)

def moment : Moment := ⟨d.table.now, d.turn⟩

/-- What ran so far, and when. -/
def runs : List (Nat × TaskId) := d.marks.filterMap Mark.ran?

/-- Schedules a job, which learns its id, and enters it. -/
def schedule (job : κ) (delay period : Nat) : TaskId × Diary ρ κ :=
  let (id, table) := d.table.schedule (⟨d.table.nextId⟩, job) delay period
  (id, { d with table, marks := d.marks ++ [.scheduled id d.table.now delay period] })

def cancel (id : TaskId) : Diary ρ κ :=
  { d with table := d.table.cancel id, marks := d.marks ++ [.cancelled id d.moment] }

/-- The turn of a task begins. -/
def begin (id : TaskId) : Diary ρ κ := { d with turn := some id, marks := d.marks ++ [.ran id d.table.now] }

/-- A turn is over. -/
def settle : Diary ρ κ := { d with turn := none }

end Diary

namespace Errand

variable {ρ κ : Type}

def run : Errand ρ κ → Diary ρ κ → Diary ρ κ
  | done, d => d
  | look next, d => (next d).run d
  | change rest next, d => next.run { d with rest }
  | schedule job delay period next, d => (next (d.schedule job delay period).1).run (d.schedule job delay period).2
  | cancel id next, d => next.run (d.cancel id)

/-- Every point that an errand passes, the last one included. -/
def points (agenda : List TaskId) : Errand ρ κ → Diary ρ κ → List (Point ρ κ)
  | done, d => [⟨d, agenda⟩]
  | look next, d => ⟨d, agenda⟩ :: points agenda (next d) d
  | change rest next, d => ⟨d, agenda⟩ :: points agenda next { d with rest }
  | schedule job delay period next, d =>
    ⟨d, agenda⟩ :: points agenda (next (d.schedule job delay period).1) (d.schedule job delay period).2
  | cancel id next, d => ⟨d, agenda⟩ :: points agenda next (d.cancel id)

end Errand

namespace Diary

variable {ρ κ : Type} (script : κ → Errand ρ κ)

/-- A job runs: its turn begins, it does its errand, and its turn is over. -/
def perform (job : TaskId × κ) : StateM (Diary ρ κ) Unit := modify fun d => ((script job.2).run (d.begin job.1)).settle

/-- Runs a tick; answers how many jobs ran. -/
def tick (d : Diary ρ κ) : Nat × Diary ρ κ := (Timetable.tick (perform script)).run d

def advance (count : Nat) (d : Diary ρ κ) : Diary ρ κ := ((Timetable.ticks (perform script) count).run d).2

def obey (d : Diary ρ κ) : Order ρ κ → Diary ρ κ
  | .schedule job delay period => (d.schedule job delay period).2
  | .cancel id => d.cancel id
  | .tick => (d.tick script).2
  | .advance count => d.advance script count
  | .change rest => { d with rest }

def after (orders : List (Order ρ κ)) (d : Diary ρ κ) : Diary ρ κ := orders.foldl (obey script) d

/-! ### Turns -/

/-- The diary once a task has had its turn, if it is still scheduled. -/
def turned (d : Diary ρ κ) (id : TaskId) : Diary ρ κ :=
  match d.table.take id with
  | none => d
  | some (job, table) => ((script job.2).run ({ d with table }.begin job.1)).settle

/-- A new tick begins. -/
def opened (d : Diary ρ κ) : Diary ρ κ := { d with table := d.table.advance }

/-- The points within the turns of a tick. -/
def turnPoints : List TaskId → Diary ρ κ → List (Point ρ κ)
  | [], _ => []
  | id :: ids, d =>
    (match d.table.take id with
      | none => []
      | some (job, table) => (script job.2).points ids ({ d with table }.begin job.1)) ++
    turnPoints ids (turned script d id)

def tickPoints (d : Diary ρ κ) : List (Point ρ κ) := turnPoints script d.opened.table.due d.opened

def advancePoints : Nat → Diary ρ κ → List (Point ρ κ)
  | 0, _ => []
  | count + 1, d => tickPoints script d ++ ⟨(d.tick script).2, []⟩ :: advancePoints count (d.tick script).2

/-- Every point that an order passes on the way. -/
def orderPoints (d : Diary ρ κ) : Order ρ κ → List (Point ρ κ)
  | .schedule _ _ _ | .cancel _ | .change _ => []
  | .tick => tickPoints script d
  | .advance count => advancePoints script count d

/-- Every point of a run: between the orders, between the ticks, and within every turn. -/
def points : List (Order ρ κ) → Diary ρ κ → List (Point ρ κ)
  | [], d => [⟨d, []⟩]
  | o :: os, d => ⟨d, []⟩ :: (orderPoints script d o ++ points os (obey script d o))

theorem run_turn (d : Diary ρ κ) (ran : Nat) (id : TaskId) :
    (Timetable.turn (perform script) ran id).run d =
      (if (d.table.take id).isSome then ran + 1 else ran, turned script d id) := by
  unfold turned
  cases h : d.table.take id with
  | none =>
    simp only [Timetable.turn, StateT.run_bind, StateT.run_get, HasTimetable.timetable, pure_bind, h]
    rfl
  | some taken =>
    simp only [Timetable.turn, StateT.run_bind, StateT.run_get, HasTimetable.timetable, pure_bind, h]
    rfl

theorem run_turns (d : Diary ρ κ) (ids : List TaskId) (ran : Nat) :
    ((ids.foldlM (Timetable.turn (perform script)) ran).run d).2 = ids.foldl (turned script) d := by
  induction ids generalizing ran d with
  | nil => rfl
  | cons id ids ih =>
    simp only [List.foldlM_cons, StateT.run_bind, run_turn]
    exact ih _ _

end Diary
end Fray
