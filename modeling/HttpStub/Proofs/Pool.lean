import HttpStub.Pool
import HttpStub.Proofs.Rounding

namespace HttpStub
namespace WorkerPool

/-!
# Worker pools over every run

A pool is driven by four calls: a submitter hands it a task, a running task
finishes (it resolved, rejected, or threw while being started), the queue is
cleared, or a caller asks to be told when the pool is idle.  Only a running
task can finish, so that call is allowed only while one runs.  A run is any
sequence of allowed calls on a new pool, in any order, and its history
records each call with the pool it was made on.

Along every run the pool stays healthy: no more tasks run than its
concurrency, a task waits only while every slot is taken, the queue never
grows past a bound that is the double of a natural number, and a waiter is
never left behind in an idle pool.  A call releases waiters exactly when it
leaves the pool idle, and then it releases every one of them.

The history also accounts for every task.  The tasks started, followed by
the queue, are the accepted tasks in submission order with the dropped ones
left out; every accepted task is started, still queued or dropped, exactly
once.  The direct start of a submit comes only while the queue is empty,
which is what keeps the starts in submission order.
-/

variable {τ ω : Type}

/-- A call made on a pool. -/
inductive Call (τ ω : Type) where
  | submit (task : τ)
  | finish
  | clear
  | onIdle (waiter : ω)

/-- How a pool answers a call. -/
inductive Reply (τ ω : Type) where
  | admission (admission : Admission τ)
  | afterTask (after : AfterTask τ ω)
  | cleared (dropped : Nat) (released : List ω)
  | idleNow (idle : Bool)

/-- Make a call on a pool. -/
def call (p : WorkerPool τ ω) : Call τ ω → WorkerPool τ ω × Reply τ ω
  | .submit task => ((p.submit task).1, .admission (p.submit task).2)
  | .finish => (p.finish.1, .afterTask p.finish.2)
  | .clear => (p.clear.1, .cleared p.clear.2.1 p.clear.2.2)
  | .onIdle waiter => ((p.onIdle waiter).1, .idleNow (p.onIdle waiter).2)

/-- Only a running task finishes. -/
def Call.Allowed (p : WorkerPool τ ω) : Call τ ω → Prop
  | .finish => 0 < p.running
  | _ => True

/-- The waiter a call brings with it. -/
def Call.waiters : Call τ ω → List ω
  | .onIdle waiter => [waiter]
  | _ => []

/-- The tasks a reply starts. -/
def Reply.started : Reply τ ω → List τ
  | .admission (.start task) => [task]
  | .afterTask (.start task) => [task]
  | _ => []

/-- The waiters a call releases: those an idle pool hands back, and the
caller of `onIdle` on an idle pool. -/
def released : Call τ ω → Reply τ ω → List ω
  | _, .afterTask (.idle waiters) => waiters
  | _, .cleared _ waiters => waiters
  | .onIdle waiter, .idleNow true => [waiter]
  | _, _ => []

/-- Nothing runs and nothing is queued. -/
def Idle (p : WorkerPool τ ω) : Prop :=
  p.running = 0 ∧ p.queue = []

/-- A pool as it is made. -/
def fresh (concurrency : Nat) (queueBound : Double) : WorkerPool τ ω :=
  { concurrency, queueBound }

/-- A run from `start` to `p`, with each call and the pool it was made on,
oldest first. -/
inductive Run (start : WorkerPool τ ω) :
    List (WorkerPool τ ω × Call τ ω) → WorkerPool τ ω → Prop where
  | nil : Run start [] start
  | call {history : List (WorkerPool τ ω × Call τ ω)} {p : WorkerPool τ ω} (c : Call τ ω) :
      Run start history p → c.Allowed p → Run start (history ++ [(p, c)]) (p.call c).1

/-! ## What each call does -/

section Calls

variable {p : WorkerPool τ ω} {task : τ}

theorem submit_of_free (free : p.running < p.concurrency) :
    p.submit task = ({ p with running := p.running + 1 }, .start task) := by
  simp [submit, free]

theorem submit_of_full (busy : ¬ p.running < p.concurrency) (full : p.queueFull = true) :
    p.submit task = (p, .refused) := by
  simp [submit, busy, full]

theorem submit_of_room (busy : ¬ p.running < p.concurrency) (room : p.queueFull = false) :
    p.submit task = ({ p with queue := p.queue ++ [task] }, .queued) := by
  simp [submit, busy, room]

theorem finish_of_cons {next : τ} {rest : List τ} (queued : p.queue = next :: rest)
    (running : 0 < p.running) :
    p.finish = ({ p with queue := rest }, .start next) := by
  have same : p.running - 1 + 1 = p.running := by omega
  simp [finish, queued, same]

theorem finish_of_last (empty : p.queue = []) (last : p.running = 1) :
    p.finish = ({ p with running := 0, idleWaiters := [] }, .idle p.idleWaiters) := by
  simp [finish, empty, last]

theorem finish_of_busy (empty : p.queue = []) (busy : 1 < p.running) :
    p.finish = ({ p with running := p.running - 1 }, .busy) := by
  have left : p.running - 1 ≠ 0 := by omega
  simp [finish, empty, left]

theorem clear_of_idle (idle : p.running = 0) :
    p.clear = ({ p with queue := [], idleWaiters := [] }, p.queue.length, p.idleWaiters) := by
  simp [clear, takeWaitersIfIdle, idle]

theorem clear_of_busy (busy : p.running ≠ 0) :
    p.clear = ({ p with queue := [] }, p.queue.length, []) := by
  simp [clear, takeWaitersIfIdle, busy]

theorem onIdle_of_idle {waiter : ω} (idle : p.Idle) : p.onIdle waiter = (p, true) := by
  simp [onIdle, idle.1, idle.2]

theorem onIdle_of_busy {waiter : ω} (busy : ¬ p.Idle) :
    p.onIdle waiter = ({ p with idleWaiters := p.idleWaiters ++ [waiter] }, false) := by
  have busy' : ¬ (p.running = 0 ∧ p.queue.isEmpty = true) := by
    simpa [Idle, List.isEmpty_iff] using busy
  simp only [onIdle, busy', if_false]

/-! What each call does to the queue and the idle waiters, whatever runs. -/

/-- A finished task starts the first queued one, releases every idle
waiter once nothing is queued, or leaves the queue and the waiters. -/
theorem finish_cases (p : WorkerPool τ ω) :
    (∃ next, p.finish.2 = .start next ∧ p.queue = next :: p.finish.1.queue ∧
      p.finish.1.idleWaiters = p.idleWaiters) ∨
    (p.finish.2 = .idle p.idleWaiters ∧ p.queue = [] ∧ p.finish.1.queue = [] ∧ p.finish.1.idleWaiters = []) ∨
    (p.finish.2 = .busy ∧ p.queue = [] ∧ p.finish.1.queue = [] ∧ p.finish.1.idleWaiters = p.idleWaiters) := by
  rcases queued : p.queue with _ | ⟨next, rest⟩
  · by_cases last : p.running - 1 = 0
    · exact Or.inr (Or.inl (by simp [finish, queued, last]))
    · exact Or.inr (Or.inr (by simp [finish, queued, last]))
  · exact Or.inl ⟨next, by simp [finish, queued]⟩

theorem submit_waiters (p : WorkerPool τ ω) (task : τ) : (p.submit task).1.idleWaiters = p.idleWaiters := by
  unfold submit
  split
  · rfl
  · split <;> rfl

/-- Clearing empties the queue; the idle waiters it releases and those it
keeps are the waiters it had. -/
theorem clear_queue (p : WorkerPool τ ω) : p.clear.1.queue = [] := by
  by_cases idle : p.running = 0
  · rw [clear_of_idle idle]
  · rw [clear_of_busy idle]

theorem clear_waiters (p : WorkerPool τ ω) : p.clear.1.idleWaiters ++ p.clear.2.2 = p.idleWaiters := by
  by_cases idle : p.running = 0
  · rw [clear_of_idle idle]
    exact List.nil_append _
  · rw [clear_of_busy idle]
    exact List.append_nil _

theorem onIdle_cases (p : WorkerPool τ ω) (waiter : ω) :
    p.onIdle waiter = (p, true) ∨ p.onIdle waiter = ({ p with idleWaiters := p.idleWaiters ++ [waiter] }, false) := by
  unfold onIdle
  split
  · exact Or.inl rfl
  · exact Or.inr rfl

end Calls

/-! ## The health of a pool -/

/-- What holds of a pool at every point of every run. -/
structure Healthy (p : WorkerPool τ ω) : Prop where
  running_le : p.running ≤ p.concurrency
  /-- A task waits only while every slot is taken. -/
  saturated : p.queue ≠ [] → p.running = p.concurrency
  /-- A bound that is the double of `m` keeps at most `m` tasks waiting. -/
  within_bound : ∀ m, p.queueBound = Double.ofNat m → p.pending ≤ m
  /-- A waiter waits only on a pool with work in it. -/
  waiting_busy : p.idleWaiters ≠ [] → 0 < p.running ∨ p.queue ≠ []

theorem fresh_healthy (concurrency : Nat) (queueBound : Double) :
    (fresh concurrency queueBound : WorkerPool τ ω).Healthy where
  running_le := Nat.zero_le _
  saturated := fun queued => absurd rfl queued
  within_bound := fun _ _ => Nat.zero_le _
  waiting_busy := fun waiting => absurd rfl waiting

/-- A task is queued only below its bound, so a bound that is the double of
`m` is never passed: rounding to doubles never decreases. -/
theorem pending_lt_of_room {p : WorkerPool τ ω} (room : p.queueFull = false) (m : Nat)
    (bound : p.queueBound = Double.ofNat m) : p.pending < m := by
  apply Nat.lt_of_not_le
  intro reached
  have full : p.queueFull = true := by
    simpa [queueFull, bound, pending] using Double.le_ofNat_ofNat reached
  rw [full] at room
  cases room

section Steps

variable {p : WorkerPool τ ω}

theorem healthy_submit (healthy : p.Healthy) (task : τ) : (p.submit task).1.Healthy := by
  by_cases free : p.running < p.concurrency
  · have empty : p.queue = [] := by
      by_contra queued
      have := healthy.saturated queued
      omega
    rw [submit_of_free free]
    exact ⟨free, fun queued => absurd empty queued, healthy.within_bound,
      fun _ => .inl (Nat.succ_pos _)⟩
  · cases room : p.queueFull
    · rw [submit_of_room free room]
      dsimp only
      refine ⟨healthy.running_le, fun _ => Nat.le_antisymm healthy.running_le (Nat.not_lt.1 free), ?_,
        fun _ => .inr (by simp)⟩
      intro m bound
      have below := pending_lt_of_room room m bound
      simp only [pending, List.length_append, List.length_singleton] at below ⊢
      omega
    · rw [submit_of_full free room]
      exact healthy

theorem healthy_finish (healthy : p.Healthy) (running : 0 < p.running) : p.finish.1.Healthy := by
  cases queued : p.queue with
  | cons next rest =>
    rw [finish_of_cons queued running]
    have full := healthy.saturated (by simp [queued])
    refine ⟨healthy.running_le, fun _ => full, ?_, fun _ => .inl running⟩
    intro m bound
    have within := healthy.within_bound m bound
    simp only [pending, queued, List.length_cons] at within ⊢
    omega
  | nil =>
    rcases Nat.lt_or_eq_of_le (Nat.succ_le_of_lt running) with busy | last
    · rw [finish_of_busy queued busy]
      refine ⟨Nat.le_trans (Nat.sub_le _ _) healthy.running_le, fun waiting => ?_,
        fun m bound => healthy.within_bound m bound, fun _ => .inl (by simp; omega)⟩
      simp [queued] at waiting
    · rw [finish_of_last queued last.symm]
      exact ⟨Nat.zero_le _, fun waiting => by simp [queued] at waiting,
        fun m bound => healthy.within_bound m bound, fun waiting => absurd rfl waiting⟩

theorem healthy_clear (healthy : p.Healthy) : p.clear.1.Healthy := by
  by_cases idle : p.running = 0
  · rw [clear_of_idle idle]
    exact ⟨healthy.running_le, fun queued => absurd rfl queued, fun _ _ => Nat.zero_le _,
      fun waiting => absurd rfl waiting⟩
  · rw [clear_of_busy idle]
    exact ⟨healthy.running_le, fun queued => absurd rfl queued, fun _ _ => Nat.zero_le _,
      fun _ => .inl (Nat.pos_of_ne_zero idle)⟩

theorem healthy_onIdle (healthy : p.Healthy) (waiter : ω) : (p.onIdle waiter).1.Healthy := by
  by_cases idle : p.Idle
  · rw [onIdle_of_idle idle]
    exact healthy
  · rw [onIdle_of_busy idle]
    refine ⟨healthy.running_le, healthy.saturated, healthy.within_bound, fun _ => ?_⟩
    by_cases running : p.running = 0
    · exact .inr fun empty => idle ⟨running, empty⟩
    · exact .inl (Nat.pos_of_ne_zero running)

theorem healthy_call (healthy : p.Healthy) {c : Call τ ω} (allowed : c.Allowed p) :
    (p.call c).1.Healthy := by
  cases c with
  | submit task => exact healthy_submit healthy task
  | finish => exact healthy_finish healthy allowed
  | clear => exact healthy_clear healthy
  | onIdle waiter => exact healthy_onIdle healthy waiter

theorem Healthy.waiters_of_idle (healthy : p.Healthy) (idle : p.Idle) : p.idleWaiters = [] := by
  by_contra waiting
  rcases healthy.waiting_busy waiting with running | queued
  · exact absurd idle.1 (Nat.pos_iff_ne_zero.1 running)
  · exact queued idle.2

/-- A call that leaves the pool idle releases every waiter: those that
waited, and the caller of `onIdle` itself. -/
theorem released_of_idle (healthy : p.Healthy) {c : Call τ ω} (allowed : c.Allowed p)
    (idle : (p.call c).1.Idle) : released c (p.call c).2 = p.idleWaiters ++ c.waiters := by
  cases c with
  | submit task =>
    by_cases free : p.running < p.concurrency
    · simp [call, submit_of_free free, Idle] at idle
    · cases room : p.queueFull
      · simp [call, submit_of_room free room, Idle] at idle
      · simp only [call, submit_of_full free room] at idle ⊢
        simp [released, Call.waiters, healthy.waiters_of_idle idle]
  | finish =>
    cases queued : p.queue with
    | cons next rest =>
      simp only [call, finish_of_cons queued allowed, Idle] at idle
      exact absurd idle.1 (Nat.pos_iff_ne_zero.1 allowed)
    | nil =>
      rcases Nat.lt_or_eq_of_le (Nat.succ_le_of_lt allowed) with busy | last
      · simp only [call, finish_of_busy queued busy, Idle] at idle
        omega
      · simp [call, finish_of_last queued last.symm, released, Call.waiters]
  | clear =>
    by_cases running : p.running = 0
    · simp [call, clear_of_idle running, released, Call.waiters]
    · simp only [call, clear_of_busy running, Idle] at idle
      exact absurd idle.1 running
  | onIdle waiter =>
    by_cases before : p.Idle
    · simp [call, onIdle_of_idle before, released, Call.waiters, healthy.waiters_of_idle before]
    · simp only [call, onIdle_of_busy before] at idle
      exact absurd idle before

theorem idle_of_released {c : Call τ ω} (allowed : c.Allowed p)
    (releasing : released c (p.call c).2 ≠ []) : (p.call c).1.Idle := by
  cases c with
  | submit task =>
    simp only [call] at releasing
    cases (p.submit task).2 <;> simp [released] at releasing
  | finish =>
    cases queued : p.queue with
    | cons next rest => simp [call, finish_of_cons queued allowed, released] at releasing
    | nil =>
      rcases Nat.lt_or_eq_of_le (Nat.succ_le_of_lt allowed) with busy | last
      · simp [call, finish_of_busy queued busy, released] at releasing
      · simp [call, finish_of_last queued last.symm, Idle, queued]
  | clear =>
    by_cases running : p.running = 0
    · simp [call, clear_of_idle running, Idle, running]
    · simp [call, clear_of_busy running, released] at releasing
  | onIdle waiter =>
    by_cases before : p.Idle
    · simpa [call, onIdle_of_idle before] using before
    · simp [call, onIdle_of_busy before, released] at releasing

end Steps

theorem healthy_of_run {concurrency : Nat} {queueBound : Double}
    {history : List (WorkerPool τ ω × Call τ ω)} {p : WorkerPool τ ω}
    (run : Run (fresh concurrency queueBound) history p) : p.Healthy := by
  induction run with
  | nil => exact fresh_healthy concurrency queueBound
  | call c _ allowed healthy => exact healthy_call healthy allowed

/-- Along every run from a new pool, the pool stays healthy, and each call
releases waiters exactly when it leaves the pool idle, and then releases all
of them: no `onIdle` waiter outlives the first moment the pool is idle. -/
theorem run_keeps_pool_healthy {concurrency : Nat} {queueBound : Double}
    {history : List (WorkerPool τ ω × Call τ ω)} {p : WorkerPool τ ω}
    (run : Run (fresh concurrency queueBound) history p) :
    p.Healthy ∧ ∀ c : Call τ ω, c.Allowed p →
      ((p.call c).1.Idle → (p.call c).1.idleWaiters = [] ∧
          released c (p.call c).2 = p.idleWaiters ++ c.waiters) ∧
        (released c (p.call c).2 ≠ [] → (p.call c).1.Idle) := by
  have healthy := healthy_of_run run
  refine ⟨healthy, fun c allowed => ⟨fun idle => ⟨?_, released_of_idle healthy allowed idle⟩,
    idle_of_released allowed⟩⟩
  exact (healthy_call healthy allowed).waiters_of_idle idle

/-! ## Accounting for every task -/

/-- The task a submit got the pool to take. -/
def Call.accepted : Call τ ω → Reply τ ω → List τ
  | .submit _, .admission .refused => []
  | .submit task, _ => [task]
  | _, _ => []

/-- The tasks a call drops from the queue of the pool it is made on. -/
def Call.dropped (p : WorkerPool τ ω) : Call τ ω → List τ
  | .clear => p.queue
  | _ => []

/-- The task a call hands the pool, taken or not. -/
def Call.submitted : Call τ ω → List τ
  | .submit task => [task]
  | _ => []

/-- Whether a call is a task finishing. -/
def Call.isFinish : Call τ ω → Bool
  | .finish => true
  | _ => false

/-- The number a reply says were dropped. -/
def Reply.droppedCount : Reply τ ω → Nat
  | .cleared dropped _ => dropped
  | _ => 0

section History

variable (history : List (WorkerPool τ ω × Call τ ω))

/-- The tasks the pool took, in submission order. -/
def accepted : List τ :=
  history.flatMap fun entry => entry.2.accepted (entry.1.call entry.2).2

/-- The tasks the pool started, in the order it started them. -/
def started : List τ :=
  history.flatMap fun entry => (entry.1.call entry.2).2.started

/-- The tasks the pool dropped, in the order it dropped them. -/
def dropped : List τ :=
  history.flatMap fun entry => entry.2.dropped entry.1

/-- How many tasks finished. -/
def finishes : Nat :=
  history.countP fun entry => entry.2.isFinish

/-- The sum of the numbers `clear` answered. -/
def droppedCount : Nat :=
  (history.map fun entry => (entry.1.call entry.2).2.droppedCount).sum

/-- The tasks handed to the pool, in order, taken or not. -/
def submitted : List τ :=
  history.flatMap fun entry => entry.2.submitted

end History

section Snoc

variable (history : List (WorkerPool τ ω × Call τ ω)) (p : WorkerPool τ ω) (c : Call τ ω)

@[simp] theorem accepted_snoc :
    accepted (history ++ [(p, c)]) = accepted history ++ c.accepted (p.call c).2 := by
  simp [accepted]

@[simp] theorem started_snoc :
    started (history ++ [(p, c)]) = started history ++ (p.call c).2.started := by
  simp [started]

@[simp] theorem dropped_snoc :
    dropped (history ++ [(p, c)]) = dropped history ++ c.dropped p := by
  simp [dropped]

@[simp] theorem finishes_snoc :
    finishes (history ++ [(p, c)]) = finishes history + if c.isFinish then 1 else 0 := by
  simp [finishes, List.countP_append]

@[simp] theorem droppedCount_snoc :
    droppedCount (history ++ [(p, c)]) = droppedCount history + (p.call c).2.droppedCount := by
  simp [droppedCount]

@[simp] theorem submitted_snoc :
    submitted (history ++ [(p, c)]) = submitted history ++ c.submitted := by
  simp [submitted]

end Snoc

/-- How the tasks of a run are accounted for in the pool it reaches. -/
structure Accounts (history : List (WorkerPool τ ω × Call τ ω)) (p : WorkerPool τ ω) : Prop where
  /-- The tasks started, then those queued, come in submission order. -/
  in_order : (started history ++ p.queue).Sublist (accepted history)
  /-- Each accepted task is started, queued or dropped, exactly once. -/
  exactly_once : (accepted history).Perm (started history ++ p.queue ++ dropped history)
  /-- Each started task runs or has finished. -/
  started_length : (started history).length = p.running + finishes history
  /-- What `clear` answered is what it dropped. -/
  dropped_length : droppedCount history = (dropped history).length

theorem accounts_fresh (concurrency : Nat) (queueBound : Double) :
    Accounts [] (fresh concurrency queueBound : WorkerPool τ ω) where
  in_order := by simp [started, accepted, fresh]
  exactly_once := by simp [started, accepted, dropped, fresh]
  started_length := by simp [started, finishes, fresh]
  dropped_length := by simp [droppedCount, dropped]

section Steps

variable {history : List (WorkerPool τ ω × Call τ ω)} {p : WorkerPool τ ω}

theorem accounts_submit (healthy : p.Healthy) (accounts : Accounts history p) (task : τ) :
    Accounts (history ++ [(p, .submit task)]) (p.call (.submit task)).1 := by
  obtain ⟨in_order, exactly_once, started_length, dropped_length⟩ := accounts
  by_cases free : p.running < p.concurrency
  · have empty : p.queue = [] := by
      by_contra queued
      have := healthy.saturated queued
      omega
    simp only [empty, List.append_nil] at in_order exactly_once
    refine ⟨?_, ?_, ?_, ?_⟩ <;>
      simp only [call, submit_of_free free, accepted_snoc, started_snoc, dropped_snoc,
        finishes_snoc, droppedCount_snoc, Call.accepted, Reply.started, Call.dropped,
        Call.isFinish, Reply.droppedCount, empty, List.append_nil, Bool.false_eq_true, if_false,
        Nat.add_zero]
    · exact in_order.append (List.Sublist.refl [task])
    · refine (exactly_once.append_right [task]).trans ?_
      rw [List.append_assoc, List.append_assoc]
      exact List.Perm.append_left _ List.perm_append_comm
    · simp [started_length]
      omega
    · exact dropped_length
  · cases room : p.queueFull
    · refine ⟨?_, ?_, ?_, ?_⟩ <;>
        simp only [call, submit_of_room free room, accepted_snoc, started_snoc, dropped_snoc,
          finishes_snoc, droppedCount_snoc, Call.accepted, Reply.started, Call.dropped,
          Call.isFinish, Reply.droppedCount, List.append_nil, Bool.false_eq_true, if_false,
          Nat.add_zero]
      · rw [← List.append_assoc]
        exact in_order.append (List.Sublist.refl [task])
      · refine (exactly_once.append_right [task]).trans ?_
        simp only [List.append_assoc]
        exact List.Perm.append_left _ (List.Perm.append_left _ List.perm_append_comm)
      · exact started_length
      · exact dropped_length
    · refine ⟨?_, ?_, ?_, ?_⟩ <;>
        simp only [call, submit_of_full free room, accepted_snoc, started_snoc, dropped_snoc,
          finishes_snoc, droppedCount_snoc, Call.accepted, Reply.started, Call.dropped,
          Call.isFinish, Reply.droppedCount, List.append_nil, Bool.false_eq_true, if_false,
          Nat.add_zero]
      · exact in_order
      · exact exactly_once
      · exact started_length
      · exact dropped_length

theorem accounts_finish (accounts : Accounts history p) (running : 0 < p.running) :
    Accounts (history ++ [(p, .finish)]) (p.call .finish).1 := by
  obtain ⟨in_order, exactly_once, started_length, dropped_length⟩ := accounts
  cases queued : p.queue with
  | cons next rest =>
    rw [queued] at in_order exactly_once
    refine ⟨?_, ?_, ?_, ?_⟩ <;>
      simp only [call, finish_of_cons queued running, accepted_snoc, started_snoc, dropped_snoc,
        finishes_snoc, droppedCount_snoc, Call.accepted, Reply.started, Call.dropped,
        Call.isFinish, Reply.droppedCount, List.append_nil, if_true, Nat.add_zero]
    · simpa using in_order
    · simpa using exactly_once
    · simp [started_length]
      omega
    · exact dropped_length
  | nil =>
    rcases Nat.lt_or_eq_of_le (Nat.succ_le_of_lt running) with busy | last
    · refine ⟨?_, ?_, ?_, ?_⟩ <;>
        simp only [call, finish_of_busy queued busy, accepted_snoc, started_snoc, dropped_snoc,
          finishes_snoc, droppedCount_snoc, Call.accepted, Reply.started, Call.dropped,
          Call.isFinish, Reply.droppedCount, List.append_nil, if_true, Nat.add_zero, queued]
      · simpa [queued] using in_order
      · simpa [queued] using exactly_once
      · omega
      · exact dropped_length
    · refine ⟨?_, ?_, ?_, ?_⟩ <;>
        simp only [call, finish_of_last queued last.symm, accepted_snoc, started_snoc,
          dropped_snoc, finishes_snoc, droppedCount_snoc, Call.accepted, Reply.started,
          Call.dropped, Call.isFinish, Reply.droppedCount, List.append_nil, if_true,
          Nat.add_zero]
      · simpa [queued] using in_order
      · simpa [queued] using exactly_once
      · omega
      · exact dropped_length

theorem accounts_clear (accounts : Accounts history p) :
    Accounts (history ++ [(p, .clear)]) (p.call .clear).1 := by
  obtain ⟨in_order, exactly_once, started_length, dropped_length⟩ := accounts
  have cleared : (p.call .clear).1.queue = [] ∧ (p.call .clear).1.running = p.running ∧
      (p.call .clear).2 = .cleared p.queue.length (p.clear.2.2) := by
    by_cases idle : p.running = 0
    · simp [call, clear_of_idle idle]
    · simp [call, clear_of_busy idle]
  refine ⟨?_, ?_, ?_, ?_⟩ <;>
    simp only [cleared, accepted_snoc, started_snoc, dropped_snoc, finishes_snoc,
      droppedCount_snoc, Call.accepted, Reply.started, Call.dropped, Call.isFinish,
      Reply.droppedCount, List.append_nil, Bool.false_eq_true, if_false, Nat.add_zero]
  · exact (List.sublist_append_left _ _).trans in_order
  · refine exactly_once.trans ?_
    rw [List.append_assoc]
    exact List.Perm.append_left _ List.perm_append_comm
  · exact started_length
  · simp [dropped_length]

theorem accounts_onIdle (accounts : Accounts history p) (waiter : ω) :
    Accounts (history ++ [(p, .onIdle waiter)]) (p.call (.onIdle waiter)).1 := by
  obtain ⟨in_order, exactly_once, started_length, dropped_length⟩ := accounts
  have same : (p.call (.onIdle waiter)).1.queue = p.queue ∧
      (p.call (.onIdle waiter)).1.running = p.running := by
    by_cases idle : p.Idle
    · simp [call, onIdle_of_idle idle]
    · simp [call, onIdle_of_busy idle]
  have reply : (p.call (.onIdle waiter)).2 = .idleNow (p.onIdle waiter).2 := rfl
  refine ⟨?_, ?_, ?_, ?_⟩ <;>
    simp only [same, reply, accepted_snoc, started_snoc, dropped_snoc, finishes_snoc,
      droppedCount_snoc, Call.accepted, Reply.started, Call.dropped, Call.isFinish,
      Reply.droppedCount, List.append_nil, Bool.false_eq_true, if_false, Nat.add_zero]
  · exact in_order
  · exact exactly_once
  · exact started_length
  · exact dropped_length

theorem accounts_call (healthy : p.Healthy) (accounts : Accounts history p) {c : Call τ ω}
    (allowed : c.Allowed p) : Accounts (history ++ [(p, c)]) (p.call c).1 := by
  cases c with
  | submit task => exact accounts_submit healthy accounts task
  | finish => exact accounts_finish accounts allowed
  | clear => exact accounts_clear accounts
  | onIdle waiter => exact accounts_onIdle accounts waiter

end Steps

theorem accounts_of_run {concurrency : Nat} {queueBound : Double}
    {history : List (WorkerPool τ ω × Call τ ω)} {p : WorkerPool τ ω}
    (run : Run (fresh concurrency queueBound) history p) : Accounts history p := by
  induction run with
  | nil => exact accounts_fresh concurrency queueBound
  | call c run allowed accounts => exact accounts_call (healthy_of_run run) accounts allowed

/-- A submit is refused exactly when every slot is taken and the queue has
reached its bound, and a refused submit changes nothing. -/
theorem submit_refused_iff {p : WorkerPool τ ω} (healthy : p.Healthy) (task : τ) :
    ((p.submit task).2 = .refused ↔
      p.active = p.concurrency ∧ p.queueBound.le (Double.ofNat p.pending) = true) ∧
    ((p.submit task).2 = .refused → (p.submit task).1 = p) := by
  have fullness : p.active = p.concurrency ↔ ¬ p.running < p.concurrency := by
    have := healthy.running_le
    simp only [active]
    omega
  by_cases free : p.running < p.concurrency
  · simp [submit_of_free free, fullness, free]
  · cases room : p.queueFull
    · simp only [submit_of_room free room, reduceCtorEq, false_iff, not_and, false_implies,
        and_true]
      intro _ full
      simp only [queueFull, pending] at room full
      rw [full] at room
      cases room
    · simp only [submit_of_full free room, true_iff, implies_true, and_true]
      exact ⟨fullness.2 free, room⟩

/-- A pool with one slot and room for one waiting task, after its first
submit. -/
theorem run_keeps_pool_healthy_one_submit :
    Run (fresh 1 (Double.ofNat 1) : WorkerPool Nat Nat) [(fresh 1 (Double.ofNat 1), .submit 7)]
        ((fresh 1 (Double.ofNat 1)).call (.submit 7)).1 ∧
      (((fresh 1 (Double.ofNat 1) : WorkerPool Nat Nat).call (.submit 7)).1.Healthy ∧
        ∀ c : Call Nat Nat, c.Allowed ((fresh 1 (Double.ofNat 1)).call (.submit 7)).1 →
          ((((fresh 1 (Double.ofNat 1)).call (.submit 7)).1.call c).1.Idle →
              (((fresh 1 (Double.ofNat 1)).call (.submit 7)).1.call c).1.idleWaiters = [] ∧
              released c (((fresh 1 (Double.ofNat 1)).call (.submit 7)).1.call c).2 =
                ((fresh 1 (Double.ofNat 1)).call (.submit 7)).1.idleWaiters ++ c.waiters) ∧
            (released c (((fresh 1 (Double.ofNat 1)).call (.submit 7)).1.call c).2 ≠ [] →
              (((fresh 1 (Double.ofNat 1)).call (.submit 7)).1.call c).1.Idle)) :=
  have run : Run (fresh 1 (Double.ofNat 1) : WorkerPool Nat Nat)
      [(fresh 1 (Double.ofNat 1), .submit 7)] ((fresh 1 (Double.ofNat 1)).call (.submit 7)).1 :=
    Run.call (.submit 7) Run.nil trivial
  ⟨run, run_keeps_pool_healthy run⟩

end WorkerPool
end HttpStub
