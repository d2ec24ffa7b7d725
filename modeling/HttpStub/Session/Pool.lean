import HttpStub.Pool
import HttpStub.Async.Loop

/-!
# A scripted worker pool

A session submits probe tasks to a worker pool and reports, after each
operation has run and every job it caused has finished, what the tasks
did.  A probe task announces its start, then waits on a gate: a deferred
task's gate opens or fails when the script says so, an immediate task's
gate opens on the next job and a rejecting one fails there; a throwing task
fails before it waits at all.  A task that passes its gate announces that
it finished.  The pool reports each failure once.

The gate of a deferred task exists from its submission, so it may be
opened before the task starts; the task then passes it as soon as it
starts.  The script names gates by task id, and a later submission under
the same id takes the name over: the earlier task keeps its own gate, which
the script can no longer reach.
-/

namespace HttpStub
namespace Session
namespace Pool

open Async

/-- How a probe task behaves. -/
inductive Mode where
  | deferred
  | immediate
  | immediateReject (message : String)
  | syncThrow (message : String)
  deriving DecidableEq, Repr

/-- Why a probe task failed: an error with a message, or any value `α`. -/
inductive Fault (α : Type) where
  | error (message : String)
  | value (v : α)
  deriving Repr

/-- A submitted probe task: its id, how it behaves, and for a deferred task
the gate it waits on. -/
structure Probe where
  id : String
  mode : Mode
  gate : Option CellId

/-- What a session reports. -/
inductive Notice (α : Type) where
  | started (id : String)
  | finished (id : String)
  | taskError (fault : Fault α)
  | idle (id : String)
  deriving Repr

/-- One operation of a session. -/
inductive Op (α : Type) where
  | submit (id : String) (mode : Mode)
  | resolve (id : String)
  | reject (id : String) (fault : Fault α)
  | clear
  | onIdle (id : String)
  | settle

/-- The points where waiting code resumes. -/
inductive Reaction where
  /-- A probe task passed or failed its gate; its own cell settles next. -/
  | gatePassed (task : Probe) (own : CellId)
  /-- The pool saw the cell of a task it runs settle; the pool's code that
  waits on it knows which task it ran. -/
  | taskSettled (task : Probe)
  /-- The script saw the pool become idle. -/
  | idleSeen (id : String)
  /-- An immediate gate opens or fails. -/
  | openGate (gate : CellId) (fails : Option String)

/-- The state of a session. -/
structure State (α : Type) where
  pool : WorkerPool Probe CellId
  loop : Loop Reaction Unit (Fault α) := {}
  gates : List (String × CellId) := []
  notices : Array (Notice α) := #[]

/-- What one step reports. -/
structure Report (α : Type) where
  result : Option (Sum Bool Nat)
  active : Nat
  pending : Nat
  notices : List (Notice α)
  deriving Repr

variable {α : Type}

/-- Record a notice. -/
def State.note (s : State α) (n : Notice α) : State α :=
  { s with notices := s.notices.push n }

/-- Start a probe task in a slot the pool has reserved.  A throwing task
fails at once and frees its slot; the others wait on their gate.  Starting
may cascade through the queue, so it is bounded by the queue's length. -/
def launch (fuel : Nat) (task : Probe) (s : State α) : State α :=
  match fuel with
  | 0 => s
  | fuel + 1 =>
    let s := s.note (.started task.id)
    match task.mode with
    | .syncThrow message =>
      let s := s.note (.taskError (.error message))
      afterTask fuel s
    | mode =>
      let (gate, loop) := match mode, task.gate with
        | .deferred, some g => (g, s.loop)
        | .immediateReject m, _ =>
          let (g, l) := s.loop.fresh
          (g, l.defer (.openGate g (some m)))
        | _, _ =>
          let (g, l) := s.loop.fresh
          (g, l.defer (.openGate g none))
      let (own, loop) := loop.fresh
      let loop := loop.onSettled gate (.gatePassed task own)
      { s with loop := loop.onSettled own (.taskSettled task) }
where
  /-- A task is done: start the next queued one or release idle waiters. -/
  afterTask (fuel : Nat) (s : State α) : State α :=
    let (pool, next) := s.pool.finish
    let s := { s with pool }
    match next with
    | .start task => launch fuel task s
    | .idle ws => { s with loop := ws.foldl (fun l w => l.settle w (.fulfilled ())) s.loop }
    | .busy => s

/-- Run one job. -/
def runJob (s : State α) : Job Reaction Unit (Fault α) → State α
  | .resume (.gatePassed task own) o =>
    let s := match o with
      | .fulfilled _ => s.note (.finished task.id)
      | .rejected _ => s
    { s with loop := s.loop.settle own o }
  | .resume (.taskSettled _) o =>
    let s := match o with
      | .fulfilled _ => s
      | .rejected f => s.note (.taskError f)
    launch.afterTask (s.pool.queue.length + 1) s
  | .resume (.idleSeen id) _ => s.note (.idle id)
  | .task (.openGate gate fails) =>
    { s with loop := s.loop.settle gate (match fails with
      | some m => .rejected (.error m)
      | none => .fulfilled ()) }
  | _ => s

/-- Run queued jobs until none is left, within `fuel` jobs. -/
def drain (fuel : Nat) (s : State α) : State α :=
  match fuel with
  | 0 => s
  | fuel + 1 =>
    match s.loop.next? with
    | some (j, loop) => drain fuel (runJob { s with loop } j)
    | none => s

/-- The jobs a session may run after one operation. -/
def jobBudget : Nat := 100000

/-- Apply one operation and answer its result. -/
def apply (s : State α) : Op α → State α × Option (Sum Bool Nat)
  | .submit id mode =>
    let (s, gate) := match mode with
      | .deferred =>
        let (g, loop) := s.loop.fresh
        ({ s with loop, gates := (id, g) :: s.gates }, some g)
      | _ => (s, none)
    let (pool, admission) := s.pool.submit ⟨id, mode, gate⟩
    let s := { s with pool }
    match admission with
    | .start task => (launch (s.pool.queue.length + 1) task s, some (.inl true))
    | .queued => (s, some (.inl true))
    | .refused => (s, some (.inl false))
  | .resolve id =>
    match s.gates.lookup id with
    | some g => ({ s with loop := s.loop.settle g (.fulfilled ()) }, none)
    | none => (s, none)
  | .reject id fault =>
    match s.gates.lookup id with
    | some g => ({ s with loop := s.loop.settle g (.rejected fault) }, none)
    | none => (s, none)
  | .clear =>
    let (pool, dropped, ws) := s.pool.clear
    let loop := ws.foldl (fun l w => l.settle w (.fulfilled ())) s.loop
    ({ s with pool, loop }, some (.inr dropped))
  | .onIdle id =>
    let (w, loop) := s.loop.fresh
    let (pool, idleNow) := s.pool.onIdle w
    let loop := if idleNow then loop.settle w (.fulfilled ()) else loop
    ({ s with pool, loop := loop.onSettled w (.idleSeen id) }, none)
  | .settle => (s, none)

/-- Run one operation and everything it causes, and report the step. -/
def step (s : State α) (op : Op α) : State α × Report α :=
  let (s, result) := apply { s with notices := #[] } op
  let s := drain jobBudget s
  (s, ⟨result, s.pool.active, s.pool.pending, s.notices.toList⟩)

/-- Run a script on a new pool, or fail as creating the pool fails. -/
def run (concurrency : Option Double) (queueBound : Double) (ops : List (Op α)) :
    Except Failure (List (Report α)) := do
  let pool ← WorkerPool.create concurrency queueBound
  let init : State α := { pool }
  pure (ops.foldl (fun (acc : State α × Array (Report α)) op =>
    let (s, r) := step acc.1 op
    (s, acc.2.push r)) (init, #[])).2.toList

end Pool
end Session
end HttpStub
