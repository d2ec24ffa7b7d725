import HttpStub.Proofs.PoolSession.Books
import Mathlib.Data.List.Induction

namespace HttpStub
namespace Session
namespace Pool

/-!
# What a session reports over a whole script

`replay` runs a script step by step, as `run` does, and keeps the state it
reaches.  Every step keeps the books, so after any script the pool got where
it is by a run of calls that handed it the script's submissions in order; the
session reported the pool's starts in the order the pool made them; and it
reported the failure of each finished task exactly once, with what the task
threw or what its gate was failed with.  When the loop has nothing left to
run, no task that still runs has failed yet, so every failure so far has been
reported.
-/

open Async

variable {α : Type}

/-- A script run on a session step by step, with the report of each step. -/
def replay (s : State α) (ops : List (Op α)) : State α × List (Report α) :=
  ops.foldl (fun acc op => ((step acc.1 op).1, acc.2 ++ [(step acc.1 op).2])) (s, [])

theorem replay_snoc (s : State α) (ops : List (Op α)) (op : Op α) :
    replay s (ops ++ [op]) =
      ((step (replay s ops).1 op).1, (replay s ops).2 ++ [(step (replay s ops).1 op).2]) := by
  simp [replay, List.foldl_append]

theorem step_notices (s : State α) (op : Op α) :
    (step s op).2.notices = (step s op).1.notices.toList := rfl

theorem foldl_reports (ops : List (Op α)) (acc : State α × List (Report α)) :
    ops.foldl (fun acc op => ((step acc.1 op).1, acc.2 ++ [(step acc.1 op).2])) acc =
      ((replay acc.1 ops).1, acc.2 ++ (replay acc.1 ops).2) := by
  induction ops generalizing acc with
  | nil => simp [replay]
  | cons op ops shifted =>
    rw [List.foldl_cons, shifted]
    conv_rhs => rw [replay, List.foldl_cons, shifted]
    simp

theorem replay_cons (s : State α) (op : Op α) (ops : List (Op α)) :
    replay s (op :: ops) =
      ((replay (step s op).1 ops).1, (step s op).2 :: (replay (step s op).1 ops).2) := by
  rw [replay, List.foldl_cons, foldl_reports]
  simp

theorem foldl_push (ops : List (Op α)) (acc : State α × Array (Report α)) :
    (ops.foldl (fun (acc : State α × Array (Report α)) op =>
        let (s, r) := step acc.1 op
        (s, acc.2.push r)) acc).2.toList =
      acc.2.toList ++ (replay acc.1 ops).2 := by
  induction ops generalizing acc with
  | nil => simp [replay]
  | cons op ops pushed =>
    simp only [List.foldl_cons, pushed, replay_cons]
    simp

theorem run_eq_replay (concurrency : Option Double) (queueBound : Double) (ops : List (Op α)) :
    run concurrency queueBound ops =
      (fun pool => (replay { pool } ops).2) <$> WorkerPool.create concurrency queueBound := by
  cases created : (WorkerPool.create concurrency queueBound : Except Failure (WorkerPool Probe CellId)) with
  | error e => simp [run, created, bind, Except.bind, Functor.map, Except.map]
  | ok pool =>
    simp only [run, created, bind, Except.bind, pure, Except.pure, Functor.map, Except.map]
    rw [foldl_push]
    simp

theorem create_fresh {concurrency : Option Double} {queueBound : Double}
    {pool : WorkerPool Probe CellId} (created : WorkerPool.create concurrency queueBound = .ok pool) :
    pool = WorkerPool.fresh pool.concurrency queueBound := by
  unfold WorkerPool.create at created
  split at created
  · split at created
    · cases created
      rfl
    · cases created
  · cases created

theorem Shape.init (n : Nat) (b : Double) : Shape ({ pool := WorkerPool.fresh n b } : State α) := by
  constructor <;> simp [WorkerPool.fresh]

theorem booked_init (n : Nat) (b : Double) :
    Booked n b [] [] ({ pool := WorkerPool.fresh n b } : State α) :=
  ⟨Shape.init n b, [], [], {
    run := .nil
    submitted := by simp [WorkerPool.submitted]
    tasks := by simp [WorkerPool.started, running, Loop.owed]
    finished := by simp [WorkerPool.finishes]
    started_ids := by simp [WorkerPool.started]
    faults := by simp
    decided := by simp }⟩

theorem booked_replay (n : Nat) (b : Double) (ops : List (Op α)) :
    ∃ earlier, earlier ++ (replay { pool := WorkerPool.fresh n b } ops).1.notices.toList =
        (replay { pool := WorkerPool.fresh n b } ops).2.flatMap Report.notices ∧
      Booked n b (ops.filterMap Op.request) earlier (replay { pool := WorkerPool.fresh n b } ops).1 := by
  induction ops using List.reverseRecOn with
  | nil => exact ⟨[], rfl, booked_init n b⟩
  | append_singleton ops op booked =>
    obtain ⟨earlier, notices, booked⟩ := booked
    rw [replay_snoc, List.filterMap_append]
    refine ⟨earlier ++ (replay _ ops).1.notices.toList, ?_, booked_step booked op⟩
    simp [← notices, step_notices]

/-- Once the loop has nothing left to run, no task still running has failed:
each waits on a gate that has not settled. -/
theorem Shape.running_unfailed {s : State α} (shape : Shape s) (idle : s.loop.jobs = []) :
    ∀ t ∈ running s.loop, t.failure s.loop = none := by
  intro t owed
  obtain ⟨o, ks, found, report⟩ :
      ∃ (o : CellId) (ks : List Reaction),
        s.loop.cells[o]? = some (.pending ks) ∧ Reaction.taskSettled t ∈ ks := by
    simp only [running, Loop.owed, idle, List.flatMap_nil, List.append_nil, List.mem_flatMap] at owed
    obtain ⟨cell, mem, owes⟩ := owed
    obtain ⟨o, found⟩ := List.mem_iff_getElem?.1 mem
    cases cell with
    | pending ks =>
      simp only [Loop.Cell.owed, List.mem_flatMap] at owes
      obtain ⟨k, mem, reported⟩ := owes
      cases k <;> simp [Reaction.reports] at reported
      subst reported
      exact ⟨o, ks, by simpa using found, mem⟩
    | settled r => simp [Loop.Cell.owed] at owes
  obtain ⟨rfl, quiet⟩ := shape.own o ks t found report
  suffices undecided : t.passed s.loop = none by
    rw [Probe.failure_of_quiet _ quiet, undecided]
    rfl
  rcases shape.passes o t found with ⟨c, ks', waiting, passing⟩ | ⟨r, queued⟩
  · have waits := (shape.waiting c ks' t o waiting passing).2
    unfold Waits at waits
    unfold Probe.passed
    cases scripted : t.scripted with
    | some g =>
      simp only [scripted] at waits
      rw [waits]
      simp [Loop.outcome?, waiting]
    | none =>
      simp only [scripted] at waits
      rw [idle] at waits
      exact absurd waits.2.1 List.not_mem_nil
  · rw [idle] at queued
    exact absurd queued List.not_mem_nil

/-! ## The contract of the pool -/

/-- Along every run of a pool from a new one, a submit is refused exactly
when every slot is taken and the queue has reached its bound, and a refused
submit changes nothing; the pool starts the tasks it took and did not drop,
each once and in submission order; `clear` answers how many it dropped; and
what it took is what runs, waits, finished or was dropped.  Along every
script a session runs on a new pool, the pool is handed the script's
submissions in order, the session reports the pool's starts in that order,
and it reports the failure of each finished task once, with what the task
threw or what its gate failed with; once the loop has nothing left to run,
no task that still runs has failed. -/
theorem pool_accounts_for_every_task (concurrency : Nat) (queueBound : Double) :
    (∀ {τ ω : Type} {history : List (WorkerPool τ ω × WorkerPool.Call τ ω)} {p : WorkerPool τ ω},
      WorkerPool.Run (WorkerPool.fresh concurrency queueBound) history p →
        (∀ task : τ, ((p.submit task).2 = .refused ↔
            p.active = p.concurrency ∧ p.queueBound.le (Double.ofNat p.pending) = true) ∧
          ((p.submit task).2 = .refused → (p.submit task).1 = p)) ∧
        WorkerPool.Accounts history p ∧
        (WorkerPool.accepted history).length =
          p.active + p.pending + WorkerPool.finishes history + (WorkerPool.dropped history).length) ∧
    ∀ ops : List (Op α),
      let final := replay { pool := WorkerPool.fresh concurrency queueBound } ops
      let notices := final.2.flatMap Report.notices
      ∃ history done,
        WorkerPool.Run (WorkerPool.fresh concurrency queueBound) history final.1.pool ∧
        (WorkerPool.submitted history).map Probe.request = ops.filterMap Op.request ∧
        notices.filterMap Notice.startedId = (WorkerPool.started history).map Probe.id ∧
        (WorkerPool.started history).Perm (done ++ running final.1.loop) ∧
        (notices.filterMap Notice.fault).Perm (done.filterMap (Probe.failure final.1.loop)) ∧
        (final.1.loop.jobs = [] → ∀ t ∈ running final.1.loop, t.failure final.1.loop = none) := by
  refine ⟨fun run => ?_, fun ops => ?_⟩
  · have accounts := WorkerPool.accounts_of_run run
    refine ⟨WorkerPool.submit_refused_iff (WorkerPool.healthy_of_run run), accounts, ?_⟩
    have counted := accounts.exactly_once.length_eq
    have started := accounts.started_length
    simp only [List.length_append] at counted
    simp only [WorkerPool.active, WorkerPool.pending]
    omega
  · obtain ⟨earlier, reported, shape, history, done, books⟩ :=
      booked_replay (α := α) concurrency queueBound ops
    dsimp only
    refine ⟨history, done, books.run, books.submitted, ?_, ?_, ?_, shape.running_unfailed⟩
    · rw [← reported]
      simpa using books.started_ids
    · simpa using books.tasks
    · rw [← reported]
      exact books.faults

/-- The contract at a pool with one slot and room for one waiting task,
after its first submit. -/
theorem pool_accounts_after_one_submit :
    let start : WorkerPool Nat Nat := WorkerPool.fresh 1 (Double.ofNat 1)
    let history := [(start, WorkerPool.Call.submit 7)]
    let p := (start.call (.submit 7)).1
    WorkerPool.Run start history p ∧
      (∀ task : Nat, ((p.submit task).2 = .refused ↔
          p.active = p.concurrency ∧ p.queueBound.le (Double.ofNat p.pending) = true) ∧
        ((p.submit task).2 = .refused → (p.submit task).1 = p)) ∧
      WorkerPool.Accounts history p ∧
      (WorkerPool.accepted history).length =
        p.active + p.pending + WorkerPool.finishes history + (WorkerPool.dropped history).length :=
  have run : WorkerPool.Run (WorkerPool.fresh 1 (Double.ofNat 1) : WorkerPool Nat Nat)
      [(WorkerPool.fresh 1 (Double.ofNat 1), .submit 7)]
      ((WorkerPool.fresh 1 (Double.ofNat 1)).call (.submit 7)).1 :=
    WorkerPool.Run.call (.submit 7) .nil trivial
  ⟨run, (pool_accounts_for_every_task (α := Nat) 1 (Double.ofNat 1)).1 run⟩

end Pool
end Session
end HttpStub
