import Fray.Ident
import Fray.Tick

/-! A scheduler that is driven tick by tick. A job runs after its delay and then, when it has a period, once in
    each period until it is cancelled. Within a tick the due jobs run in the order of their ids; while a job
    runs it may schedule and cancel any jobs, itself included. -/

namespace Fray

/-- A scheduled job and its next turn. A period of zero is a single run. -/
structure Appointment (κ : Type) where
  id : TaskId
  job : κ
  next : Nat
  period : Nat

structure Timetable (κ : Type) where
  /-- The tick that ran last. -/
  now : Nat := 0
  nextId : Nat := 1
  /-- What is scheduled, in ascending order of the ids. -/
  tasks : List (Appointment κ) := []

namespace Timetable

variable {κ : Type}

instance : Inhabited (Timetable κ) := ⟨{}⟩

/-- A job never runs in the tick in which it is scheduled. -/
def schedule (t : Timetable κ) (job : κ) (delay period : Nat) : TaskId × Timetable κ :=
  let id : TaskId := ⟨t.nextId⟩
  (id, { t with nextId := t.nextId + 1, tasks := t.tasks ++ [⟨id, job, Tick.later t.now (max delay 1), period⟩] })

/-- Cancelling an unknown or finished task does nothing. -/
def cancel (t : Timetable κ) (id : TaskId) : Timetable κ := { t with tasks := t.tasks.filter fun a => a.id ≠ id }

def find? (t : Timetable κ) (id : TaskId) : Option (Appointment κ) := t.tasks.find? fun a => a.id = id

/-- The task will never run again. -/
def isCancelled (t : Timetable κ) (id : TaskId) : Bool := (t.find? id).isNone

def pending (t : Timetable κ) : Nat := t.tasks.length

def advance (t : Timetable κ) : Timetable κ := { t with now := t.now + 1 }

/-- The tasks whose turn has come. -/
def due (t : Timetable κ) : List TaskId := (t.tasks.filter fun a => a.next ≤ t.now).map (·.id)

/-- Takes the turn of a task: answers its job, and moves the task to its next turn or, after a single run, out
    of the timetable. There is no turn for a task that was cancelled meanwhile. -/
def take (t : Timetable κ) (id : TaskId) : Option (κ × Timetable κ) :=
  (t.find? id).map fun a =>
    (a.job, if a.period = 0 then t.cancel id else
      { t with tasks := t.tasks.map fun b => if b.id = id then { b with next := Tick.later t.now b.period } else b })

end Timetable

class HasTimetable (σ : Type) (κ : outParam Type) where
  timetable : σ → Timetable κ
  setTimetable : Timetable κ → σ → σ

instance {κ : Type} : HasTimetable (Timetable κ) κ where
  timetable t := t
  setTimetable t _ := t

namespace Timetable

variable {σ κ : Type} [HasTimetable σ κ]

open HasTimetable

/-- Runs one task of the current tick, if it is still scheduled; counts it. -/
def turn (run : κ → StateM σ Unit) (ran : Nat) (id : TaskId) : StateM σ Nat := do
  match (timetable (← get)).take id with
  | none => return ran
  | some (job, t) =>
    modify (setTimetable t)
    run job
    return ran + 1

/-- Advances one tick and runs every task that is due; answers how many ran. -/
def tick (run : κ → StateM σ Unit) : StateM σ Nat := do
  modify fun s => setTimetable (timetable s).advance s
  (timetable (← get)).due.foldlM (turn run) 0

def ticks (run : κ → StateM σ Unit) : Nat → StateM σ Unit
  | 0 => return ()
  | n + 1 => do
    discard (tick run)
    ticks run n

end Timetable

end Fray
