import HttpStub.Proofs.PoolSession.Shape
import HttpStub.Proofs.Pool
import Mathlib.Data.List.Basic

namespace HttpStub
namespace Session
namespace Pool

/-!
# The books of a session

Every call a session makes on its pool is booked.  The tasks the pool
started are the tasks the session reported started, in the same order, and
each of them has finished or is still owed a report by the loop.  The
failure of each finished task was reported to the error handler once, with
what the task threw or what its gate failed with.

`Books` holds these accounts with a history of the pool's calls.  Between
two steps they balance; while a task is being launched, or its slot is
being freed, they are off by that one task, and `launching` and
`finishing` say by how much.  Each lemma here shows that one thing a
session does keeps them.
-/

open Async

variable {α : Type}

/-! ## What the reports say -/

/-- The task a notice says started. -/
def Notice.startedId : Notice α → Option String
  | .started id => some id
  | _ => none

/-- The fault a notice reports to the error handler. -/
def Notice.fault : Notice α → Option (Fault α)
  | .taskError f => some f
  | _ => none

/-- The fault an outcome fails with. -/
def faultOf : Outcome Unit (Fault α) → Option (Fault α)
  | .rejected f => some f
  | .fulfilled _ => none

/-- The fault a task fails with, once that is decided: the error it throws,
or the failure of its gate. -/
def Probe.failure (l : Loop Reaction Unit (Fault α)) (t : Probe) : Option (Fault α) :=
  match t.mode with
  | .syncThrow m => some (.error m)
  | _ => (t.passed l).bind faultOf

/-- What a submission asks for: a task id and how the task behaves. -/
def Probe.request (t : Probe) : String × Mode := (t.id, t.mode)

/-- What an operation of a script asks the pool to run. -/
def Op.request : Op α → Option (String × Mode)
  | .submit id mode => some (id, mode)
  | _ => none

theorem Probe.throws_eq_true {t : Probe} : t.throws = true ↔ ∃ m, t.mode = .syncThrow m := by
  unfold Probe.throws
  cases t.mode <;> simp

theorem Probe.failure_of_quiet (l : Loop Reaction Unit (Fault α)) {t : Probe}
    (quiet : t.throws = false) : t.failure l = (t.passed l).bind faultOf := by
  unfold Probe.failure
  split
  · next m mode => simp [Probe.throws, mode] at quiet
  · rfl

theorem Probe.decided_keeps {l l' : Loop Reaction Unit (Fault α)} (keeps : l.Keeps l') {t : Probe}
    (decided : t.throws = true ∨ ∃ r, t.passed l = some r) :
    t.throws = true ∨ ∃ r, t.passed l' = some r :=
  decided.imp (fun thrown => thrown) fun ⟨r, passed⟩ => ⟨r, Probe.passed_keeps keeps t passed⟩

theorem Probe.failure_keeps {l l' : Loop Reaction Unit (Fault α)} (keeps : l.Keeps l') {t : Probe}
    (decided : t.throws = true ∨ ∃ r, t.passed l = some r) : t.failure l' = t.failure l := by
  cases quiet : t.throws
  · obtain ⟨r, passed⟩ := decided.resolve_left (by simp [quiet])
    rw [Probe.failure_of_quiet _ quiet, Probe.failure_of_quiet _ quiet, passed,
      Probe.passed_keeps keeps t passed]
  · obtain ⟨m, mode⟩ := Probe.throws_eq_true.1 quiet
    simp [Probe.failure, mode]

/-! ## What a loop owes while tasks start and finish -/

theorem running_waitOn {l : Loop Reaction Unit (Fault α)} (t : Probe) {c : CellId}
    (inside : c < l.cells.size) : (running (waitOn l t c)).Perm (running l ++ [t]) := by
  have gate : c < l.fresh.2.cells.size := by
    simpa using Nat.lt_succ_of_lt inside
  have own : l.fresh.1 < (l.fresh.2.onSettled c (.gatePassed t l.fresh.1)).cells.size := by simp
  unfold running waitOn
  refine (Loop.owed_onSettled _ _ own _).trans (List.Perm.append_right _ ?_)
  refine (Loop.owed_onSettled _ _ gate _).trans ?_
  simp [Reaction.reports]

theorem running_gateFor (l : Loop Reaction Unit (Fault α)) (t : Probe) :
    running (gateFor l t).2 = running l := by
  unfold gateFor
  split <;> simp [running]

theorem keeps_gateFor (l : Loop Reaction Unit (Fault α)) (t : Probe) : l.Keeps (gateFor l t).2 := by
  unfold gateFor
  split
  · exact Loop.Keeps.refl
  · exact l.keeps_fresh.trans (Loop.Keeps.of_cells rfl)

theorem Gate.inside {s : State α} {t : Probe} {c : CellId} (gate : Gate s t c) :
    c < s.loop.cells.size := by
  rcases gate with ⟨_, pending, _⟩ | ⟨_, settled, _⟩
  · exact inside_of_some pending
  · exact inside_of_some settled

theorem running_pop {l : Loop Reaction Unit (Fault α)} {j : Job Reaction Unit (Fault α)}
    {rest : List (Job Reaction Unit (Fault α))} (queued : l.jobs = j :: rest)
    (owes : Loop.Job.owed Reaction.reports j = []) : (running { l with jobs := rest }).Perm (running l) := by
  have taken := Loop.owed_of_cons l Reaction.reports queued
  rw [owes, List.append_nil] at taken
  exact taken.symm

/-! ## The books -/

/-- The books of a session `s` whose script asked for `requests`, after the
notices `earlier` of its earlier steps: `history` is every call it made on its
pool, `done` the tasks that finished. -/
structure Books (concurrency : Nat) (queueBound : Double) (requests : List (String × Mode))
    (earlier : List (Notice α)) (s : State α)
    (history : List (WorkerPool Probe CellId × WorkerPool.Call Probe CellId))
    (done launching : List Probe) (finishing : Nat) : Prop where
  run : WorkerPool.Run (WorkerPool.fresh concurrency queueBound) history s.pool
  /-- The pool was handed the tasks the script asked for, in order. -/
  submitted : (WorkerPool.submitted history).map Probe.request = requests
  /-- Each task it started has finished, is still owed a report, or is being
  launched. -/
  tasks : (WorkerPool.started history).Perm (done ++ running s.loop ++ launching)
  /-- The pool was told of every finish but the one being booked. -/
  finished : done.length = WorkerPool.finishes history + finishing
  /-- The session reported the pool's starts in order, but the one being
  launched. -/
  started_ids : (earlier ++ s.notices.toList).filterMap Notice.startedId ++
      launching.map Probe.id = (WorkerPool.started history).map Probe.id
  /-- The session reported the failure of each finished task, once. -/
  faults : ((earlier ++ s.notices.toList).filterMap Notice.fault).Perm
    (done.filterMap (Probe.failure s.loop))
  decided : ∀ t ∈ done, t.throws = true ∨ ∃ r, t.passed s.loop = some r

/-- A session between two steps: in shape, with balanced books. -/
def Booked (concurrency : Nat) (queueBound : Double) (requests : List (String × Mode))
    (earlier : List (Notice α)) (s : State α) : Prop :=
  Shape s ∧ ∃ history done, Books concurrency queueBound requests earlier s history done [] 0

section Keeping

variable {n : Nat} {b : Double} {requests : List (String × Mode)} {earlier : List (Notice α)}
  {s : State α} {history : List (WorkerPool Probe CellId × WorkerPool.Call Probe CellId)}
  {done launching : List Probe} {finishing : Nat}

/-- The pool counts as running exactly the tasks still owed a report, being
launched, or finishing. -/
theorem Books.active (books : Books n b requests earlier s history done launching finishing) :
    s.pool.running = (running s.loop).length + launching.length + finishing := by
  have started := (WorkerPool.accounts_of_run books.run).started_length
  have counted := books.tasks.length_eq
  have finished := books.finished
  simp only [List.length_append] at counted
  omega

/-- A change of the loop that keeps every outcome and every owed report. -/
theorem Books.keep (books : Books n b requests earlier s history done launching finishing)
    {s' : State α} (pool : s'.pool = s.pool) (notices : s'.notices = s.notices)
    (keeps : s.loop.Keeps s'.loop) (owed : (running s'.loop).Perm (running s.loop)) :
    Books n b requests earlier s' history done launching finishing where
  run := pool ▸ books.run
  submitted := books.submitted
  tasks := books.tasks.trans ((owed.symm.append_left done).append_right launching)
  finished := books.finished
  started_ids := notices ▸ books.started_ids
  faults := by
    rw [notices, List.filterMap_congr fun t mem => Probe.failure_keeps keeps (books.decided t mem)]
    exact books.faults
  decided := fun t mem => Probe.decided_keeps keeps (books.decided t mem)

/-- A notice that reports neither a start nor a fault. -/
theorem Books.note (books : Books n b requests earlier s history done launching finishing)
    {notice : Notice α} (unstarted : notice.startedId = none) (faultless : notice.fault = none) :
    Books n b requests earlier (s.note notice) history done launching finishing where
  run := books.run
  submitted := books.submitted
  tasks := books.tasks
  finished := books.finished
  started_ids := by simpa [unstarted] using books.started_ids
  faults := by simpa [faultless] using books.faults
  decided := books.decided

/-- A call on the pool, booked in its history. -/
theorem Books.call (books : Books n b requests earlier s history done launching finishing)
    {c : WorkerPool.Call Probe CellId} (allowed : c.Allowed s.pool) (finishing' : Nat)
    (counted : finishing = finishing' + if c.isFinish then 1 else 0) :
    Books n b (requests ++ c.submitted.map Probe.request) earlier
      { s with pool := (s.pool.call c).1 } (history ++ [(s.pool, c)]) done
      (launching ++ (s.pool.call c).2.started) finishing' where
  run := WorkerPool.Run.call c books.run allowed
  submitted := by rw [WorkerPool.submitted_snoc, List.map_append, books.submitted]
  tasks := by
    rw [WorkerPool.started_snoc, ← List.append_assoc]
    exact books.tasks.append_right _
  finished := by
    have := books.finished
    rw [WorkerPool.finishes_snoc]
    omega
  started_ids := by
    simp only [WorkerPool.started_snoc, List.map_append, ← books.started_ids, List.append_assoc]
  faults := books.faults
  decided := books.decided

theorem Shape.flush (shape : Shape s) : Shape { s with notices := #[] } := by
  cases shape
  constructor <;> assumption

/-- The notices of a step start afresh; the books count them with the
earlier ones. -/
theorem Books.flush (books : Books n b requests earlier s history done launching finishing) :
    Books n b requests (earlier ++ s.notices.toList) { s with notices := #[] } history done
      launching finishing where
  run := books.run
  submitted := books.submitted
  tasks := books.tasks
  finished := books.finished
  started_ids := by simpa using books.started_ids
  faults := by simpa using books.faults
  decided := books.decided

/-! ## Starting a task and freeing its slot -/

/-- A task that throws as it starts is done at once: its start and its error
are reported. -/
theorem Books.throw {t : Probe} (books : Books n b requests earlier s history done [t] 0)
    {m : String} (mode : t.mode = .syncThrow m) :
    Books n b requests earlier ((s.note (.started t.id)).note (.taskError (.error m))) history
      (done ++ [t]) [] 1 where
  run := books.run
  submitted := books.submitted
  tasks := by
    refine books.tasks.trans ?_
    simp only [note_loop, List.append_nil, List.append_assoc]
    exact List.Perm.append_left done List.perm_append_comm
  finished := by
    have := books.finished
    simp only [List.length_append, List.length_singleton]
    omega
  started_ids := by simpa [List.filterMap_cons, Notice.startedId] using books.started_ids
  faults := by
    have thrown : t.failure s.loop = some (.error m) := by simp [Probe.failure, mode]
    simpa [List.filterMap_cons, Notice.fault, thrown] using books.faults.append_right [Fault.error m]
  decided := by
    intro t' mem
    rcases List.mem_append.1 mem with old | new
    · exact books.decided t' old
    · rw [List.mem_singleton.1 new]
      exact Or.inl (Probe.throws_eq_true.2 ⟨m, mode⟩)

/-- A task that does not throw starts waiting on its gate, and is owed a
report from then on. -/
theorem Books.wait {t : Probe} (books : Books n b requests earlier s history done [t] 0)
    {l : Loop Reaction Unit (Fault α)} {c : CellId} (keeps : s.loop.Keeps l)
    (owed : running l = running s.loop) (inside : c < l.cells.size) :
    Books n b requests earlier { s.note (.started t.id) with loop := waitOn l t c } history done
      [] 0 where
  run := books.run
  submitted := books.submitted
  tasks := books.tasks.trans (by
    simpa [owed, List.append_assoc] using (running_waitOn t inside).symm.append_left done)
  finished := books.finished
  started_ids := by simpa [Notice.startedId] using books.started_ids
  faults := by
    have kept := keeps.trans (keeps_waitOn l t c)
    rw [List.filterMap_congr fun t' mem => Probe.failure_keeps kept (books.decided t' mem)]
    simpa [List.filterMap_cons, Notice.fault] using books.faults
  decided := fun t' mem =>
    Probe.decided_keeps (keeps.trans (keeps_waitOn l t c)) (books.decided t' mem)

theorem afterTask_of_cons {F : Nat} {next : Probe} {rest : List Probe}
    (queued : s.pool.queue = next :: rest) (running : 0 < s.pool.running) :
    launch.afterTask F s = launch F next { s with pool := (s.pool.call .finish).1 } := by
  simp [launch.afterTask, WorkerPool.call, WorkerPool.finish_of_cons queued running]

theorem afterTask_of_last {F : Nat} (empty : s.pool.queue = []) (last : s.pool.running = 1) :
    launch.afterTask F s =
      { s with pool := (s.pool.call .finish).1,
               loop := s.pool.idleWaiters.foldl (fun l w => l.settle w (.fulfilled ())) s.loop } := by
  simp [launch.afterTask, WorkerPool.call, WorkerPool.finish_of_last empty last]

theorem afterTask_of_busy {F : Nat} (empty : s.pool.queue = []) (busy : 1 < s.pool.running) :
    launch.afterTask F s = { s with pool := (s.pool.call .finish).1 } := by
  simp [launch.afterTask, WorkerPool.call, WorkerPool.finish_of_busy empty busy]

/-- Freeing the slot of a finished task keeps the books, given that launching
the next queued task on the same fuel does. -/
theorem booked_afterTask {F : Nat}
    (launches : ∀ {s : State α} {history done} {t : Probe}, Shape s →
      Books n b requests earlier s history done [t] 0 →
      (∀ g, t.scripted = some g → g ∈ s.gates.map Prod.snd) →
      s.pool.queue.length + 1 ≤ F → Booked n b requests earlier (launch F t s))
    (shape : Shape s) (books : Books n b requests earlier s history done [] 1)
    (enough : s.pool.queue.length ≤ F) : Booked n b requests earlier (launch.afterTask F s) := by
  have running : 0 < s.pool.running := by
    have := books.active
    simp only [List.length_nil] at this
    omega
  have freed := books.call (c := .finish) running 0 rfl
  simp only [WorkerPool.Call.submitted, List.map_nil, List.append_nil, List.nil_append] at freed
  cases queued : s.pool.queue with
  | cons next rest =>
    have finished := WorkerPool.finish_of_cons queued running
    simp only [WorkerPool.call, finished, WorkerPool.Reply.started] at freed
    rw [afterTask_of_cons queued running]
    simp only [WorkerPool.call, finished]
    have fuel : rest.length + 1 ≤ F := by simpa [queued] using enough
    refine launches (shape.pool _ (fun t mem => shape.queued_gates t ?_) (fun w mem => mem)) freed
      (shape.queued_gates next (by simp [queued])) fuel
    rw [queued]
    exact List.mem_cons_of_mem next mem
  | nil =>
    rcases Nat.lt_or_eq_of_le (Nat.succ_le_of_lt running) with busy | last
    · have finished := WorkerPool.finish_of_busy queued busy
      simp only [WorkerPool.call, finished, WorkerPool.Reply.started] at freed
      rw [afterTask_of_busy queued busy]
      simp only [WorkerPool.call, finished]
      exact ⟨shape.pool _ (by simpa using shape.queued_gates) (fun w mem => mem), _, done, freed⟩
    · have finished := WorkerPool.finish_of_last queued last.symm
      simp only [WorkerPool.call, finished, WorkerPool.Reply.started] at freed
      rw [afterTask_of_last queued last.symm]
      simp only [WorkerPool.call, finished]
      have released := shape.settle_all (.fulfilled ()) s.pool.idleWaiters
        (fun w mem => List.mem_append_right _ mem)
      exact ⟨released.pool _ (by simp [queued]) (by simp), _, done,
        freed.keep rfl rfl (Loop.keeps_settle_all _ _ _)
          (Loop.owed_settle_all Reaction.reports _ _ _)⟩

/-- Launching a task, with fuel for the queue behind it, keeps the books: a
task that throws frees its slot at once, and the cascade through the queue
runs on the fuel left. -/
theorem booked_launch (F : Nat) {t : Probe} (shape : Shape s)
    (books : Books n b requests earlier s history done [t] 0)
    (queued : ∀ g, t.scripted = some g → g ∈ s.gates.map Prod.snd)
    (enough : s.pool.queue.length + 1 ≤ F) : Booked n b requests earlier (launch F t s) := by
  induction F generalizing s history done t with
  | zero => exact absurd enough (Nat.not_succ_le_zero _)
  | succ F launches =>
    cases quiet : t.throws
    · refine ⟨shape.launch_quiet quiet queued F, history, done, ?_⟩
      obtain ⟨_, gate⟩ := (shape.note (.started t.id)).gate_for quiet queued
      rw [launch_waits quiet]
      exact books.wait (keeps_gateFor _ _) (running_gateFor _ _) gate.inside
    · obtain ⟨m, mode⟩ := Probe.throws_eq_true.1 quiet
      rw [launch_throws mode]
      exact booked_afterTask launches ((shape.note _).note _) (books.throw mode)
        (by simpa using Nat.le_of_succ_le_succ enough)

/-! ## Running the queued jobs -/

/-- The pool sees a task settle: the task is done, and its failure, if it
has one, is reported. -/
theorem Books.report {t : Probe} {r : Outcome Unit (Fault α)}
    {rest : List (Job Reaction Unit (Fault α))} (books : Books n b requests earlier s history done [] 0)
    (queued : s.loop.jobs = .resume (.taskSettled t) r :: rest)
    (passed : t.passed s.loop = some r) (quiet : t.throws = false)
    {s' : State α} (pool : s'.pool = s.pool) (loop : s'.loop = { s.loop with jobs := rest })
    (notices : s'.notices.toList = s.notices.toList ++ (faultOf r).toList.map .taskError) :
    Books n b requests earlier s' history (done ++ [t]) [] 1 := by
  have kept : s.loop.Keeps s'.loop := Loop.Keeps.of_cells (by rw [loop])
  have decided : ∀ t' ∈ done ++ [t], t'.throws = true ∨ ∃ r, t'.passed s.loop = some r := by
    intro t' mem
    rcases List.mem_append.1 mem with old | new
    · exact books.decided t' old
    · rw [List.mem_singleton.1 new]
      exact Or.inr ⟨r, passed⟩
  have failed : t.failure s.loop = faultOf r := by
    rw [Probe.failure_of_quiet _ quiet, passed]
    rfl
  refine ⟨pool ▸ books.run, books.submitted, ?_, ?_, ?_, ?_, ?_⟩
  · have taken := Loop.owed_of_cons s.loop Reaction.reports queued
    refine books.tasks.trans ?_
    rw [loop]
    simp only [List.append_nil, List.append_assoc, List.singleton_append]
    refine List.Perm.append_left done (taken.trans ?_)
    exact List.perm_append_singleton _ _
  · have := books.finished
    simp only [List.length_append, List.length_singleton]
    omega
  · rw [notices]
    cases r <;> simpa [faultOf, List.filterMap_cons, Notice.startedId] using books.started_ids
  · rw [List.filterMap_congr fun t' mem => Probe.failure_keeps kept (decided t' mem), notices]
    cases r with
    | fulfilled v => simpa [faultOf, failed] using books.faults
    | rejected f =>
      simpa [faultOf, failed, List.filterMap_cons, Notice.fault] using books.faults.append_right [f]
  · intro t' mem
    exact Probe.decided_keeps kept (decided t' mem)

/-- A job that settles cell `c` runs as if the cell were settled first and
the job taken off the queue after: the settle queues its jobs behind the
rest. -/
theorem booked_settle_job {j : Job Reaction Unit (Fault α)} {rest : List (Job Reaction Unit (Fault α))}
    (queued : s.loop.jobs = j :: rest) (shape : Shape s)
    (books : Books n b requests earlier s history done [] 0) {c : CellId}
    {o : Outcome Unit (Fault α)} (settles : Settles s c o)
    (spare : Spare { s with loop := s.loop.settle c o } j)
    (owes : Loop.Job.owed Reaction.reports j = []) :
    Shape { s with loop := { s.loop with jobs := rest }.settle c o } ∧
      Books n b requests earlier { s with loop := { s.loop with jobs := rest }.settle c o } history
        done [] 0 := by
  have requeued := Loop.settle_jobs_cons s.loop queued c o
  rw [Loop.settle_tail s.loop queued]
  refine ⟨(shape.settle settles).pop requeued spare, ?_⟩
  have settled : Books n b requests earlier { s with loop := s.loop.settle c o } history done [] 0 :=
    books.keep rfl rfl (Loop.keeps_settle _ _ _) (Loop.owed_settle s.loop Reaction.reports c o)
  exact settled.keep rfl rfl (Loop.Keeps.of_cells rfl) (running_pop requeued owes)

theorem runJob_opens (g : CellId) (f : Option String) :
    runJob s (.task (.openGate g f)) = { s with loop := s.loop.settle g (gateOutcome f) } := by
  cases f <;> rfl

theorem booked_runJob {j : Job Reaction Unit (Fault α)} {rest : List (Job Reaction Unit (Fault α))}
    (queued : s.loop.jobs = j :: rest) (shape : Shape s)
    (books : Books n b requests earlier s history done [] 0) :
    Booked n b requests earlier (runJob { s with loop := { s.loop with jobs := rest } } j) := by
  have mem : j ∈ s.loop.jobs := by
    rw [queued]
    exact List.mem_cons_self
  have popped : Loop.Job.owed Reaction.reports j = [] → Spare s j →
      Booked n b requests earlier { s with loop := { s.loop with jobs := rest } } :=
    fun owes spare => ⟨shape.pop queued spare, history, done,
      books.keep rfl rfl (Loop.Keeps.of_cells rfl) (running_pop queued owes)⟩
  cases j with
  | resume k r =>
    cases k with
    | gatePassed t o =>
      obtain ⟨settled, books'⟩ := booked_settle_job queued shape books (shape.settles_own mem)
        (Loop.settle_not_pending _ _ _ _) rfl
      cases r with
      | fulfilled v => exact ⟨settled.note _, history, done, books'.note rfl rfl⟩
      | rejected f => exact ⟨settled, history, done, books'⟩
    | taskSettled t =>
      obtain ⟨passed, quiet⟩ := shape.reporting t r mem
      have left := shape.pop queued trivial
      cases r with
      | fulfilled v =>
        exact booked_afterTask (booked_launch _) left
          (books.report queued passed quiet rfl rfl (by simp [faultOf])) (Nat.le_succ _)
      | rejected f =>
        exact booked_afterTask (booked_launch _) (left.note _)
          (books.report queued passed quiet rfl rfl (by simp [faultOf])) (Nat.le_succ _)
    | idleSeen id =>
      obtain ⟨left, history', done', books'⟩ := popped rfl trivial
      exact ⟨left.note _, history', done', books'.note rfl rfl⟩
    | openGate g f => exact popped rfl trivial
  | task k =>
    cases k with
    | openGate g f =>
      obtain ⟨settled, books'⟩ := booked_settle_job queued shape books (shape.settles_opening mem)
        (fun ks => Loop.settle_not_pending _ _ _ ks) rfl
      rw [runJob_opens]
      exact ⟨settled, history, done, books'⟩
    | gatePassed t o => exact popped rfl trivial
    | taskSettled t => exact popped rfl trivial
    | idleSeen id => exact popped rfl trivial

theorem drain_of_cons (fuel : Nat) {j : Job Reaction Unit (Fault α)}
    {rest : List (Job Reaction Unit (Fault α))} (queued : s.loop.jobs = j :: rest) :
    drain (fuel + 1) s = drain fuel (runJob { s with loop := { s.loop with jobs := rest } } j) := by
  simp [drain, Loop.next_of_cons _ queued]

theorem drain_of_nil (fuel : Nat) (empty : s.loop.jobs = []) : drain fuel s = s := by
  cases fuel <;> simp [drain, Loop.next?, empty]

theorem booked_drain (fuel : Nat) (booked : Booked n b requests earlier s) :
    Booked n b requests earlier (drain fuel s) := by
  induction fuel generalizing s with
  | zero => exact booked
  | succ fuel drains =>
    obtain ⟨shape, history, done, books⟩ := booked
    cases queued : s.loop.jobs with
    | nil =>
      rw [drain_of_nil _ queued]
      exact ⟨shape, history, done, books⟩
    | cons j rest =>
      rw [drain_of_cons fuel queued]
      exact drains (booked_runJob queued shape books)

/-! ## The operations of a script -/

/-- The state a submission hands its task from, and the task's gate: a
deferred task gets a new gate, which the script names by the task's id. -/
def prepare (s : State α) (id : String) : Mode → State α × Option CellId
  | .deferred =>
    ({ s with loop := s.loop.fresh.2, gates := (id, s.loop.fresh.1) :: s.gates }, some s.loop.fresh.1)
  | _ => (s, none)

/-- Hand a task to the pool: launch it in a free slot, or leave it queued or
refused. -/
def handOver (s : State α) (t : Probe) : State α :=
  match (s.pool.submit t).2 with
  | .start task =>
    launch ((s.pool.submit t).1.queue.length + 1) task { s with pool := (s.pool.submit t).1 }
  | _ => { s with pool := (s.pool.submit t).1 }

theorem apply_submit (id : String) (mode : Mode) :
    (apply s (.submit id mode)).1 = handOver (prepare s id mode).1 ⟨id, mode, (prepare s id mode).2⟩ := by
  cases mode <;> simp only [apply, prepare, handOver] <;> split <;>
    · rename_i answered
      simp only [answered]

/-- Handing a task to the pool keeps the books: the task is launched,
queued, or refused without a trace. -/
theorem booked_handOver (shape : Shape s) (books : Books n b requests earlier s history done [] 0)
    {t : Probe} (gate : ∀ g, t.scripted = some g → g ∈ s.gates.map Prod.snd) :
    Booked n b (requests ++ [t.request]) earlier (handOver s t) := by
  have handed := books.call (c := .submit t) trivial 0 rfl
  simp only [WorkerPool.Call.submitted, List.map_cons, List.map_nil, List.nil_append] at handed
  unfold handOver
  by_cases free : s.pool.running < s.pool.concurrency
  · have submitted : s.pool.submit t = _ := WorkerPool.submit_of_free free
    simp only [WorkerPool.call, submitted, WorkerPool.Reply.started] at handed ⊢
    exact booked_launch _ (shape.pool _ shape.queued_gates (fun w mem => mem)) handed gate
      (Nat.le_refl _)
  · cases room : s.pool.queueFull
    · have submitted : s.pool.submit t = _ := WorkerPool.submit_of_room free room
      simp only [WorkerPool.call, submitted, WorkerPool.Reply.started] at handed ⊢
      refine ⟨shape.pool _ (fun t' mem g scripted => ?_) (fun w mem => mem), _, done, handed⟩
      rcases List.mem_append.1 mem with old | new
      · exact shape.queued_gates t' old g scripted
      · rw [List.mem_singleton.1 new] at scripted
        exact gate g scripted
    · have submitted : s.pool.submit t = _ := WorkerPool.submit_of_full free room
      simp only [WorkerPool.call, submitted, WorkerPool.Reply.started] at handed ⊢
      exact ⟨shape, _, done, handed⟩

theorem booked_submit (booked : Booked n b requests earlier s) (id : String) (mode : Mode) :
    Booked n b (requests ++ [(id, mode)]) earlier (apply s (.submit id mode)).1 := by
  obtain ⟨shape, history, done, books⟩ := booked
  rw [apply_submit]
  have ready : Shape (prepare s id mode).1 ∧
      Books n b requests earlier (prepare s id mode).1 history done [] 0 ∧
      ∀ g, (⟨id, mode, (prepare s id mode).2⟩ : Probe).scripted = some g →
        g ∈ (prepare s id mode).1.gates.map Prod.snd := by
    cases mode
    case deferred =>
      refine ⟨shape.new_gate id, books.keep rfl rfl s.loop.keeps_fresh (by simp [running, prepare]),
        ?_⟩
      intro g scripted
      simp only [prepare, Probe.scripted, Option.some.injEq] at scripted
      simp [prepare, ← scripted]
    all_goals exact ⟨shape, books, fun g scripted => by simp [Probe.scripted] at scripted⟩
  obtain ⟨ready, books', gate⟩ := ready
  exact booked_handOver ready books' gate

theorem mem_of_lookup {gates : List (String × CellId)} {id : String} {g : CellId}
    (found : gates.lookup id = some g) : g ∈ gates.map Prod.snd := by
  obtain ⟨before, after, rfl, _⟩ := List.lookup_eq_some_iff.1 found
  simp

theorem booked_settle_gate (booked : Booked n b requests earlier s) {g : CellId}
    (gate : g ∈ s.gates.map Prod.snd) (o : Outcome Unit (Fault α)) :
    Booked n b requests earlier { s with loop := s.loop.settle g o } := by
  obtain ⟨shape, history, done, books⟩ := booked
  exact ⟨shape.settle (shape.settles_outside (List.mem_append_left _ gate) o), history, done,
    books.keep rfl rfl (Loop.keeps_settle _ _ _) (Loop.owed_settle _ _ _ _)⟩

/-- Clearing the queue keeps the books: the dropped tasks never started, and
an idle pool releases its waiters. -/
theorem booked_clear (booked : Booked n b requests earlier s) :
    Booked n b requests earlier (apply s .clear).1 := by
  obtain ⟨shape, history, done, books⟩ := booked
  have cleared := books.call (c := .clear) trivial 0 rfl
  simp only [WorkerPool.Call.submitted, List.map_nil, List.append_nil, WorkerPool.call,
    WorkerPool.Reply.started] at cleared
  have released : ∀ w ∈ s.pool.clear.2.2, w ∈ s.gates.map Prod.snd ++ s.pool.idleWaiters := by
    intro w mem
    by_cases idle : s.pool.running = 0
    · simp only [WorkerPool.clear_of_idle idle] at mem
      exact List.mem_append_right _ mem
    · simp [WorkerPool.clear_of_busy idle] at mem
  have left : s.pool.clear.1.queue = [] ∧ ∀ w ∈ s.pool.clear.1.idleWaiters, w ∈ s.pool.idleWaiters := by
    by_cases idle : s.pool.running = 0
    · simp [WorkerPool.clear_of_idle idle]
    · simp [WorkerPool.clear_of_busy idle]
  have settled := shape.settle_all (.fulfilled ()) s.pool.clear.2.2 released
  have emptied : ∀ t ∈ s.pool.clear.1.queue, ∀ g, t.scripted = some g → g ∈ s.gates.map Prod.snd := by
    rw [left.1]
    intro t mem
    cases mem
  exact ⟨settled.pool _ emptied left.2, _, done,
    cleared.keep rfl rfl (Loop.keeps_settle_all _ _ _) (Loop.owed_settle_all Reaction.reports _ _ _)⟩

theorem booked_watch (booked : Booked n b requests earlier s) (id : String) :
    Booked n b requests earlier (apply s (.onIdle id)).1 := by
  obtain ⟨shape, history, done, books⟩ := booked
  have watched := books.call (c := .onIdle s.loop.cells.size) trivial 0 rfl
  simp only [WorkerPool.Call.submitted, List.map_nil, List.append_nil, WorkerPool.call,
    WorkerPool.Reply.started] at watched
  have quiet : s.loop.Keeps (apply s (.onIdle id)).1.loop ∧
      (running (apply s (.onIdle id)).1.loop).Perm (running s.loop) := by
    simp only [apply]
    split
    · refine ⟨(s.loop.keeps_fresh.trans (Loop.keeps_settle _ _ _)).trans (Loop.keeps_onSettled _ _ _),
        (Loop.owed_onSettled _ _ (by simp) _).trans ?_⟩
      simpa [Reaction.reports, running] using Loop.owed_settle s.loop.fresh.2 Reaction.reports _ _
    · refine ⟨s.loop.keeps_fresh.trans (Loop.keeps_onSettled _ _ _),
        (Loop.owed_onSettled _ _ (by simp) _).trans ?_⟩
      simp [Reaction.reports, running]
  exact ⟨shape.watch_idle id, _, done, watched.keep rfl rfl quiet.1 quiet.2⟩

theorem booked_apply (booked : Booked n b requests earlier s) (op : Op α) :
    Booked n b (requests ++ [op].filterMap Op.request) earlier (apply s op).1 := by
  cases op with
  | submit id mode => exact booked_submit booked id mode
  | resolve id =>
    simp only [List.filterMap_cons, Op.request, List.filterMap_nil, List.append_nil, apply]
    split
    · next g found => exact booked_settle_gate booked (mem_of_lookup found) _
    · exact booked
  | reject id f =>
    simp only [List.filterMap_cons, Op.request, List.filterMap_nil, List.append_nil, apply]
    split
    · next g found => exact booked_settle_gate booked (mem_of_lookup found) _
    · exact booked
  | clear =>
    simp only [List.filterMap_cons, Op.request, List.filterMap_nil, List.append_nil]
    exact booked_clear booked
  | onIdle id =>
    simp only [List.filterMap_cons, Op.request, List.filterMap_nil, List.append_nil]
    exact booked_watch booked id
  | settle =>
    simp only [List.filterMap_cons, Op.request, List.filterMap_nil, List.append_nil]
    exact booked

/-- A step of a script keeps the books, and counts the notices of the step
before with the earlier ones. -/
theorem booked_step (booked : Booked n b requests earlier s) (op : Op α) :
    Booked n b (requests ++ [op].filterMap Op.request) (earlier ++ s.notices.toList) (step s op).1 := by
  obtain ⟨shape, history, done, books⟩ := booked
  exact booked_drain jobBudget (booked_apply ⟨shape.flush, history, done, books.flush⟩ op)

end Keeping

end Pool
end Session
end HttpStub
