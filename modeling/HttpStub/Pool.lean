import HttpStub.Failure

/-!
# Worker pools

A pool runs at most `concurrency` tasks at once and queues the rest in
arrival order, up to a bound.  The bound is a number compared with the
queue's length, so an infinite bound never refuses and one of at most zero
refuses every task that would have to wait.  A task is started when it is
submitted to a pool with a free slot, or when a running task finishes and
it is first in the queue.  A submit to a full pool whose queue is at its
bound is refused, and the task never runs.

Callers may wait for the pool to become idle: nothing running and nothing
queued.  A waiter that asks while the pool is idle is answered at once;
the others are answered, in the order they asked, when the last running
task finishes with the queue empty, or when the queue is cleared while
nothing runs.

The pool here is the bookkeeping only.  Running a task and noticing that it
finished belong to whoever drives the pool: `submit` and `finish` say what
to start next.
-/

namespace HttpStub

/-- A pool of tasks `τ` with idle waiters `ω`. -/
structure WorkerPool (τ ω : Type) where
  concurrency : Nat
  /-- The queue is full once its length reaches this bound. -/
  queueBound : Double
  running : Nat := 0
  queue : List τ := []
  idleWaiters : List ω := []
  deriving Repr

/-- What a submit did with its task. -/
inductive Admission (τ : Type) where
  | start (task : τ)
  | queued
  | refused
  deriving DecidableEq, Repr

/-- What a finished task leaves to do. -/
inductive AfterTask (τ ω : Type) where
  | start (task : τ)
  | idle (waiters : List ω)
  | busy
  deriving DecidableEq, Repr

namespace WorkerPool

variable {τ ω : Type}

/-- The failure for a concurrency that is not a positive integer. -/
def badConcurrency : Failure :=
  Failure.range "concurrency must be a positive integer"

/-- A pool with the requested concurrency, which must be an integer of at
least one (`none` stands for a value that is not a number), and a queue
bound. -/
def create (concurrency : Option Double) (queueBound : Double) :
    Except Failure (WorkerPool τ ω) :=
  match concurrency with
  | some c =>
    if c.isInteger && Double.le 1 c then .ok { concurrency := c.truncate.toNat, queueBound }
    else .error badConcurrency
  | none => .error badConcurrency

/-- How many tasks run. -/
def active (p : WorkerPool τ ω) : Nat :=
  p.running

/-- How many tasks wait for a slot. -/
def pending (p : WorkerPool τ ω) : Nat :=
  p.queue.length

/-- Whether the queue has reached its bound. -/
def queueFull (p : WorkerPool τ ω) : Bool :=
  p.queueBound.le (Double.ofNat p.queue.length)

/-- Hand a task to the pool: start it in a free slot, queue it, or refuse
it when the queue is full. -/
def submit (p : WorkerPool τ ω) (task : τ) : WorkerPool τ ω × Admission τ :=
  if p.running < p.concurrency then ({ p with running := p.running + 1 }, .start task)
  else if p.queueFull then (p, .refused)
  else ({ p with queue := p.queue ++ [task] }, .queued)

/-- Take the idle waiters if nothing runs. -/
def takeWaitersIfIdle (p : WorkerPool τ ω) : WorkerPool τ ω × List ω :=
  if p.running = 0 then ({ p with idleWaiters := [] }, p.idleWaiters) else (p, [])

/-- A running task finished: start the next queued task in its slot, or,
when the last task is done, release the idle waiters. -/
def finish (p : WorkerPool τ ω) : WorkerPool τ ω × AfterTask τ ω :=
  let p := { p with running := p.running - 1 }
  match p.queue with
  | next :: rest => ({ p with queue := rest, running := p.running + 1 }, .start next)
  | [] =>
    if p.running = 0 then ({ p with idleWaiters := [] }, .idle p.idleWaiters)
    else (p, .busy)

/-- Drop every queued task.  Answers how many were dropped and, when
nothing runs, the idle waiters to release. -/
def clear (p : WorkerPool τ ω) : WorkerPool τ ω × Nat × List ω :=
  let dropped := p.queue.length
  let (p', ws) := takeWaitersIfIdle { p with queue := [] }
  (p', dropped, ws)

/-- Whether the pool is idle now; if not, the waiter is queued. -/
def onIdle (p : WorkerPool τ ω) (w : ω) : WorkerPool τ ω × Bool :=
  if p.running = 0 ∧ p.queue.isEmpty then (p, true)
  else ({ p with idleWaiters := p.idleWaiters ++ [w] }, false)

end WorkerPool
end HttpStub
