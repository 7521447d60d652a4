import Fray.Engine.World

/-! How the engine has its jobs run. Any scheduler will do that hands out ids; two are given here, both over the
    timetable of the world. -/

namespace Fray

/-- A scheduler. A period of zero is a single run; cancelling an unknown or finished task does nothing. -/
structure Scheduling (α η : Type) where
  schedule : Job α → (delay period : Nat) → Act α η TaskId
  cancel : TaskId → Act α η Unit
  isCancelled : World α η → TaskId → Bool

namespace Scheduling

variable {α η : Type}

/-- Enters a job into the timetable. -/
def enter (j : Job α) (delay period : Nat) : Act α η TaskId := do
  let w ← get
  let (id, timetable) := w.timetable.schedule j delay period
  set { w with timetable }
  return id

/-- Jobs run when the timetable is ticked. -/
def ticked : Scheduling α η where
  schedule := enter
  cancel id := modify fun w => { w with timetable := w.timetable.cancel id }
  isCancelled w id := w.timetable.isCancelled id

/-- A job without delay runs at once, while it is being scheduled, and then again after its period. -/
def eager (run : Job α → Act α η Unit) : Scheduling α η where
  schedule j delay period := do
    if delay = 0 then
      run j
      enter j period period
    else enter j delay period
  cancel := ticked.cancel
  isCancelled := ticked.isCancelled

end Scheduling

end Fray
