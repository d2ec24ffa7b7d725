/-!
# Cells, jobs and timers

A cooperative scheduler for code that waits on one-shot cells.

A cell settles once, with a value or a failure.  The reactions waiting on
a pending cell are queued as jobs at the moment it settles, in the order
they were attached; a reaction attached to a settled cell is queued at
once.  Jobs run one at a time, first in first out, and each may settle
cells and queue more jobs.

Timers count on a clock that moves only when it is told to.  When it moves,
the due timers fire in the order of their due times, earlier timers first
among equal ones, and the jobs each one queues run before the next fires.

The loop is generic in the reactions `κ`, the values `υ` and the failures
`ε`: a reaction is data, and the code that runs a job gives it meaning.
-/

namespace HttpStub
namespace Async

/-- How a cell settled. -/
inductive Outcome (υ ε : Type) where
  | fulfilled (value : υ)
  | rejected (failure : ε)
  deriving DecidableEq, Repr

/-- A cell: pending with the reactions that wait on it, or settled. -/
inductive Cell (κ υ ε : Type) where
  | pending (reactions : List κ)
  | settled (outcome : Outcome υ ε)
  deriving Repr

/-- The name of a cell in a loop. -/
abbrev CellId := Nat

/-- A job: a reaction resumed with an outcome, or a task queued on its own. -/
inductive Job (κ υ ε : Type) where
  | resume (reaction : κ) (outcome : Outcome υ ε)
  | task (reaction : κ)
  deriving Repr

/-- A timer: its number, its due time and the task it queues. -/
structure Timer (κ : Type) where
  id : Nat
  due : Nat
  task : κ
  deriving Repr

/-- The state of a loop. -/
structure Loop (κ υ ε : Type) where
  cells : Array (Cell κ υ ε) := #[]
  jobs : List (Job κ υ ε) := []
  clock : Nat := 0
  timers : List (Timer κ) := []
  nextTimer : Nat := 0

namespace Loop

variable {κ υ ε : Type}

/-- A new pending cell. -/
def fresh (l : Loop κ υ ε) : CellId × Loop κ υ ε :=
  (l.cells.size, { l with cells := l.cells.push (.pending []) })

/-- A new cell, settled already. -/
def settledCell (l : Loop κ υ ε) (o : Outcome υ ε) : CellId × Loop κ υ ε :=
  (l.cells.size, { l with cells := l.cells.push (.settled o) })

/-- How a cell settled, if it did. -/
def outcome? (l : Loop κ υ ε) (c : CellId) : Option (Outcome υ ε) :=
  match l.cells[c]? with
  | some (.settled o) => some o
  | _ => none

/-- Queue a task. -/
def defer (l : Loop κ υ ε) (k : κ) : Loop κ υ ε :=
  { l with jobs := l.jobs ++ [.task k] }

/-- Settle a pending cell and queue its reactions; a settled cell keeps its
outcome. -/
def settle (l : Loop κ υ ε) (c : CellId) (o : Outcome υ ε) : Loop κ υ ε :=
  match l.cells[c]? with
  | some (.pending ks) =>
    { l with cells := l.cells.modify c (fun _ => .settled o),
             jobs := l.jobs ++ ks.map (Job.resume · o) }
  | _ => l

/-- Attach a reaction to a cell: it waits if the cell is pending and is
queued at once if the cell is settled. -/
def onSettled (l : Loop κ υ ε) (c : CellId) (k : κ) : Loop κ υ ε :=
  match l.cells[c]? with
  | some (.pending ks) => { l with cells := l.cells.modify c (fun _ => .pending (ks ++ [k])) }
  | some (.settled o) => { l with jobs := l.jobs ++ [.resume k o] }
  | none => l

/-- The next job, taken off the queue. -/
def next? (l : Loop κ υ ε) : Option (Job κ υ ε × Loop κ υ ε) :=
  match l.jobs with
  | j :: rest => some (j, { l with jobs := rest })
  | [] => none

/-- Start a timer that queues `k` after `delay` time units. -/
def startTimer (l : Loop κ υ ε) (delay : Nat) (k : κ) : Nat × Loop κ υ ε :=
  (l.nextTimer, { l with timers := l.timers ++ [⟨l.nextTimer, l.clock + delay, k⟩],
                         nextTimer := l.nextTimer + 1 })

/-- Cancel a timer; a fired or unknown timer is ignored. -/
def cancelTimer (l : Loop κ υ ε) (id : Nat) : Loop κ υ ε :=
  { l with timers := l.timers.filter (·.id != id) }

/-- The earliest of the timers, the first started among equals. -/
def earliest : List (Timer κ) → Option (Timer κ)
  | [] => none
  | t :: ts =>
    match earliest ts with
    | some u => if u.due < t.due then some u else some t
    | none => some t

/-- Fire the earliest timer due by `limit`: the clock moves to its due time
and its task is queued. -/
def fireDue? (l : Loop κ υ ε) (limit : Nat) : Option (Loop κ υ ε) :=
  match earliest l.timers with
  | some t =>
    if t.due ≤ limit then
      some { l with timers := l.timers.filter (·.id != t.id),
                    clock := max l.clock t.due,
                    jobs := l.jobs ++ [.task t.task] }
    else none
  | none => none

end Loop
end Async
end HttpStub
