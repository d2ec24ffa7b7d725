import HttpStub.Proofs.Dispatch.Sequential

/-!
# The accept loop of a server that dispatches concurrently

A server that dispatches concurrently hands each connection to its worker
pool and goes on at once: the dispatch's cell is settled before the loop
attaches to it, so the loop's resumption is queued in the same job.  The
loop therefore moves along the stages of `Relay` that keep no cell: between
rounds, waiting for an accept, or queued to go on after a dispatch.  The
handlers run on the workers and owe the loop nothing, so here only the
loop's own two reactions are weighed.

`Cycles r w` is the invariant, kept by every move that calls no stop.  Read
off at a point where no job is queued, it says that the server is then
accepting, or idle before any start has succeeded.
-/

namespace HttpStub
namespace Machine

open Std.Do Async Session.Server

/-- What the accept loop's own reactions owe. -/
def Reaction.looped : Reaction → List Link
  | .loopAccepted _ _ => [.accepting]
  | .loopDispatched _ _ => [.dispatched]
  | _ => []

theorem Reaction.looped_eq_nil {r : Reaction} (calm : r.loops = false) : r.looped = [] := by
  cases r <;> first | rfl | cases calm

theorem Reaction.looped_ne_nil {r : Reaction} (looping : r.loops = true) : r.looped ≠ [] := by
  cases r <;> simp [Reaction.looped, Reaction.loops] at looping ⊢

/-- The accept loop of a server that dispatches concurrently stands at `r`,
a stage that keeps no cell: the world owes exactly the loop's links of `r`,
its server is in the phase of `r`, what `r` waits for is queued, and nothing
refuses the loop. -/
structure Cycles (r : Relay) (w : World) : Prop where
  unkept : r.kept = []
  owed : (w.loop.owed Reaction.looped : Multiset Link) = r.owed
  outline : w.server.map Server.outline = some (r.phase, .concurrent)
  waits : r.Waits w
  unrefused : Unrefused w

variable {r : Relay} {w w' : World}

namespace Cycles

/-- A world whose loop stands somewhere is steady against itself. -/
theorem steady (cycles : Cycles r w) : Steady Reaction.looped (Scene.of Reaction.looped w []) w :=
  Steady.of_scene (fun _ mem => by cases mem) (fun _ mem => by cases mem) cycles.unrefused

theorem of_steady (cycles : Cycles r w) (steady : Steady Reaction.looped (Scene.of Reaction.looped w []) w') :
    Cycles r w' where
  unkept := cycles.unkept
  owed := steady.owed.trans cycles.owed
  outline := steady.outline.trans cycles.outline
  waits := by
    have waits := cycles.waits
    have unkept := cycles.unkept
    cases r
    case handling s d h => cases unkept
    case finishing d => cases unkept
    case dispatched =>
      obtain ⟨a, own, v, queued⟩ := waits
      exact ⟨a, own, v, steady.still_queued queued⟩
    all_goals trivial
  unrefused := steady.unrefused

/-- A function that keeps every world steady keeps the loop where it stands. -/
theorem run {α : Type} {f : Sim α} (cycles : Cycles r w)
    (spec : ⦃fun w' => ⌜Steady Reaction.looped (Scene.of Reaction.looped w []) w'⌝⦄ f
      ⦃⇓ _ w' => ⌜Steady Reaction.looped (Scene.of Reaction.looped w []) w'⌝⦄) : Cycles r (f.run w).2 :=
  cycles.of_steady (Steady.after spec cycles.steady)

/-- What is noted changes nothing the loop stands on. -/
theorem notices (cycles : Cycles r w) (ns : Array Notice) : Cycles r { w with notices := ns } :=
  ⟨cycles.unkept, cycles.owed, cycles.outline, by cases r <;> exact cycles.waits,
    cycles.unrefused.of_same rfl rfl rfl⟩

/-- A world with its first job taken off, that job owing the loop nothing,
keeps the loop where it stands. -/
theorem pop {j : Job Reaction Value Failure} {rest : List (Job Reaction Value Failure)} (cycles : Cycles r w)
    (queued : w.loop.jobs = j :: rest) (quiet : Loop.Job.owed Reaction.looped j = []) :
    Cycles r { w with loop := { w.loop with jobs := rest } } where
  unkept := cycles.unkept
  owed := Relay.owed_pop_quiet cycles.owed queued quiet
  outline := cycles.outline
  waits := by
    have waits := cycles.waits
    have unkept := cycles.unkept
    cases r
    case handling s d h => cases unkept
    case finishing d => cases unkept
    case dispatched =>
      obtain ⟨a, own, v, queued'⟩ := waits
      rw [queued] at queued'
      rcases List.mem_cons.1 queued' with rfl | later
      · cases quiet
      · exact ⟨a, own, v, later⟩
    all_goals trivial
  unrefused := cycles.unrefused.pop queued

/-- A job that owes the loop nothing and is no start that bound keeps the
loop where it stands. -/
theorem job_calm {j : Job Reaction Value Failure} {rest : List (Job Reaction Value Failure)}
    (cycles : Cycles r w) (queued : w.loop.jobs = j :: rest) (quiet : Loop.Job.owed Reaction.looped j = [])
    (unbound : ∀ a own p, j ≠ .resume (.startBound a own) (.fulfilled (.port p))) :
    Cycles r ((runJob j).run { w with loop := { w.loop with jobs := rest } }).2 := by
  have popped := cycles.pop queued quiet
  refine popped.of_steady (Steady.after (runJob_steady (fun _ calm => Reaction.looped_eq_nil
    (Reaction.loops_eq_false calm)) (fun _ _ calm => Reaction.looped_eq_nil calm) j quiet ?_
    (fun _ _ kept => by cases kept) ?_ unbound) popped.steady)
  · intro k o same
    subst same
    cases looping : k.loops
    · rfl
    · exact absurd quiet (Reaction.looped_ne_nil looping)
  · intro k o same
    exact cycles.unrefused.jobs k o (by rw [queued, same]; exact List.mem_cons_self)

end Cycles

/-! ## The loop's own moves -/

/-- A round of the accept loop, on a server that is not stopped and owes the
loop nothing: the loop waits for the next accept, or ends. -/
theorem loopRound_cycles (a : Nat) (own : CellId) {p : Phase} (running : p ≠ .stopped)
    (outline : w.server.map Server.outline = some (p, .concurrent))
    (owed : (w.loop.owed Reaction.looped : Multiset Link) = 0) (unrefused : Unrefused w) :
    ∃ r', Cycles r' ((loopRound a own).run w).2 := by
  obtain ⟨outline', ⟨E, le, grown⟩, unrefused'⟩ := loopRound_round Reaction.looped a own running outline unrefused
  rw [owed, zero_add] at grown
  rcases Multiset.le_singleton.1 le with rfl | rfl
  · exact ⟨.ended, rfl, grown, outline', trivial, unrefused'⟩
  · exact ⟨.accepting, rfl, grown, outline', trivial, unrefused'⟩

/-- A concurrent dispatch hands the connection to the pool, a worker or
nobody, without touching what the world keeps, and answers with a settled
cell made last. -/
theorem dispatch_concurrent (s : Nat) {p : WorkerPool Nat CellId} {sc : Scene Link}
    (found : w.server.map (·.dispatcher) = some (.concurrent p)) (steady : Steady Reaction.looped sc w)
    (unkept : sc.kept = []) :
    ∃ w', Steady Reaction.looped sc w' ∧
      (dispatch s).run w = (w'.loop.cells.size, { w' with loop := (w'.loop.settledCell (.fulfilled .unit)).2 }) := by
  have concurrent := Steady.mode_of_found found steady
  have pooled := Steady.after (setPool_steady (p.submit s).1 concurrent fun c _ => by simp [unkept]) steady
  simp only [dispatch, bind_run, dispatcher?, get_run, pure_run, found]
  generalize (setPool (p.submit s).1).run w = pool at pooled ⊢
  cases admission : (p.submit s).2 with
  | start t =>
    exact ⟨_, Steady.after (startWorker_steady (fun _ calm => Reaction.looped_eq_nil calm) t) pooled, rfl⟩
  | queued => exact ⟨_, pooled, rfl⟩
  | refused => exact ⟨_, Steady.after (close_steady s) (Steady.after (log_steady _ _) pooled), rfl⟩

/-- A connection accepted between rounds is handed to the pool, and the loop
is queued at once to go on. -/
theorem loopAccepted_socket_cycles (a : Nat) (own : CellId) (s : Nat) (ended : Cycles .ended w) :
    Cycles .dispatched ((loopAccepted a own (.fulfilled (.socket s))).run w).2 := by
  have awake := awake_of_outline ended.outline (p := .accepting) (by decide)
  have run : ((loopAccepted a own (.fulfilled (.socket s))).run w).2 =
      let d := (dispatch s).run ((track s).run ((setPhase .dispatching).run w).2).2
      { d.2 with loop := d.2.loop.onSettled d.1 (.loopDispatched a own) } := by
    simp only [loopAccepted, bind_run, stopped_run, awake]
    rfl
  have outline₁ : ((setPhase .dispatching).run w).2.server.map Server.outline = some (.dispatching, .concurrent) := by
    simp only [setPhase, modifyServer_run]
    rw [outline_setPhase, ended.outline]
    rfl
  have taking : Steady Reaction.looped (Scene.of Reaction.looped ((setPhase .dispatching).run w).2 [])
      ((setPhase .dispatching).run w).2 :=
    Steady.of_scene (fun _ mem => by cases mem) (fun _ mem => by cases mem) (ended.unrefused.of_same rfl rfl rfl)
  have tracked := Steady.after (track_steady s) taking
  obtain ⟨p, found⟩ : ∃ p, ((track s).run ((setPhase .dispatching).run w).2).2.server.map (·.dispatcher) =
      some (.concurrent p) := by
    obtain ⟨srv, server, same⟩ := Option.map_eq_some_iff.1 (tracked.outline.trans outline₁)
    cases dispatcher : srv.dispatcher with
    | concurrent p => exact ⟨p, by simp [server, dispatcher]⟩
    | sequential c => simp [Server.outline, dispatcher, Dispatcher.mode] at same
  obtain ⟨w', steady', dispatched⟩ := dispatch_concurrent s found tracked rfl
  rw [run, dispatched]
  simp only
  have made := steady'.settledCell (o := .fulfilled .unit) trivial
  have settled : (w'.loop.settledCell (.fulfilled .unit)).2.cells[w'.loop.cells.size]? =
      some (.settled (.fulfilled .unit)) := by
    simp [Loop.settledCell]
  have inside : w'.loop.cells.size < (w'.loop.settledCell (.fulfilled .unit)).2.cells.size := by
    simp [Loop.settledCell]
  refine ⟨rfl, ?_, made.outline.trans outline₁, ⟨a, own, .unit, ?_⟩, made.unrefused.onSettled _ _⟩
  · rw [Multiset.coe_eq_coe.2 (Loop.owed_onSettled _ Reaction.looped inside _), ← Multiset.coe_add, made.owed]
    have before : (Scene.of Reaction.looped ((setPhase .dispatching).run w).2 []).owed = 0 := ended.owed
    rw [before]
    rfl
  · rw [Loop.onSettled_of_settled _ settled]
    exact List.mem_append_right _ List.mem_cons_self

/-- The accept loop resumes between rounds: a failed accept starts another
round, a connection is handed to the pool, and anything else ends the loop. -/
theorem loopAccepted_cycles (a : Nat) (own : CellId) (o : Outcome Value Failure) (ended : Cycles .ended w)
    (clear : Clear o) : ∃ r', Cycles r' ((loopAccepted a own o).run w).2 := by
  rcases o with v | f
  · cases v
    case socket s => exact ⟨_, loopAccepted_socket_cycles a own s ended⟩
    all_goals exact ⟨_, ended.run (settle_steady own _ List.not_mem_nil trivial)⟩
  · have open_ : f.kind ≠ .acceptorClosed := clear
    simp only [loopAccepted, open_, beq_iff_eq, if_false, bind_run, log, note_run]
    exact loopRound_cycles a own (p := .accepting) (by decide) ((ended.notices _).notices _).outline
      ((ended.notices _).notices _).owed ((ended.notices _).notices _).unrefused

/-- A start whose bind gave a port, while no start has bound: the accept
loop starts its first round. -/
theorem startBound_cycles (a : Nat) (own : CellId) (p : Double) (idle : Cycles .idle w) :
    ∃ r', Cycles r' ((startBound a own (.fulfilled (.port p))).run w).2 := by
  obtain ⟨ns, run⟩ := startBound_port_run a own p w
  rw [run]
  have made : Cycles .idle { w with loop := w.loop.fresh.2, notices := ns } :=
    (idle.notices ns).of_steady (idle.notices ns).steady.fresh
  obtain ⟨r', round⟩ := loopRound_cycles a w.loop.cells.size (by decide) made.outline made.owed made.unrefused
  have recorded := round.run
    (modifyServer_steady (fun srv => { srv with loop := some w.loop.cells.size }) (fun _ => rfl) fun _ _ mem => .inl mem)
  exact ⟨_, recorded.run (settle_steady own (.fulfilled (.port p)) List.not_mem_nil trivial)⟩

namespace Cycles

variable {o : Outcome Value Failure} {rest : List (Job Reaction Value Failure)}

/-- The loop resumes after an accept only at the stage that waits for one,
and the world without the job stands between rounds. -/
theorem accepting_of_accepted {a : Nat} {own : CellId} (cycles : Cycles r w)
    (queued : w.loop.jobs = .resume (.loopAccepted a own) o :: rest) :
    r = .accepting ∧ Cycles .ended { w with loop := { w.loop with jobs := rest } } := by
  have owes := Relay.owed_pop cycles.owed queued
  have stage : r = .accepting := by
    have mem := Relay.mem_of_head cycles.owed queued (x := .accepting) (by simp [Reaction.looped])
    cases r <;> simp [Relay.owed] at mem ⊢
  subst stage
  exact ⟨rfl, rfl, by simpa [Loop.Job.owed, Reaction.looped, Relay.owed] using owes, cycles.outline, trivial,
    cycles.unrefused.pop queued⟩

/-- The loop resumes after a dispatch with how the dispatch went, which the
loop's stage waits for. -/
theorem loopDispatched_job {a : Nat} {own : CellId} (cycles : Cycles r w)
    (queued : w.loop.jobs = .resume (.loopDispatched a own) o :: rest) :
    ∃ r', Cycles r' ((loopDispatched a own o).run { w with loop := { w.loop with jobs := rest } }).2 := by
  have owes := Relay.owed_pop cycles.owed queued
  have head : Link.dispatched ∈ (Reaction.loopDispatched a own).looped := by simp [Reaction.looped]
  have mem := Relay.mem_of_head cycles.owed queued head
  have waits := cycles.waits
  have unkept := cycles.unkept
  cases r
  case handling s d h => cases unkept
  case finishing d => cases unkept
  case dispatched =>
    obtain ⟨a', own', v, queued'⟩ := waits
    rw [queued] at queued'
    rcases List.mem_cons.1 queued' with same | later
    · cases same
      have none : (({ w with loop := { w.loop with jobs := rest } } : World).loop.owed Reaction.looped :
          Multiset Link) = 0 := by
        simpa [Loop.Job.owed, Reaction.looped, Relay.owed] using owes
      exact loopRound_cycles a own (w := { w with loop := { w.loop with jobs := rest } }) (p := .dispatching)
        (by decide) cycles.outline none (cycles.unrefused.pop queued)
    · exact (Relay.once cycles.owed queued head (Loop.mem_owed_of_job later (by simp [Reaction.looped]))).elim
  all_goals simp [Relay.owed] at mem

/-- The next job keeps the loop standing, given that a start whose bind gave
a port waits only while no start has bound. -/
theorem job (cycles : Cycles r w)
    (idle : ∀ a own p, Job.resume (.startBound a own) (.fulfilled (.port p)) ∈ w.loop.jobs → r = .idle) :
    ∃ r', Cycles r' (Move.job.apply w) := by
  cases queued : w.loop.jobs with
  | nil =>
    rw [Move.apply_job_of_idle queued]
    exact ⟨r, cycles⟩
  | cons j rest =>
    rw [Move.apply_job_of_next (Loop.next_of_cons _ queued)]
    cases j with
    | task t => exact ⟨r, cycles.job_calm queued rfl fun _ _ _ same => by cases same⟩
    | resume k o =>
      cases k
      case loopAccepted a own =>
        exact loopAccepted_cycles a own o (cycles.accepting_of_accepted queued).2
          (cycles.unrefused.jobs _ _ (by rw [queued]; exact List.mem_cons_self))
      case loopDispatched a own => exact cycles.loopDispatched_job queued
      case startBound a own =>
        by_cases bound : ∃ p, o = .fulfilled (.port p)
        · obtain ⟨p, rfl⟩ := bound
          have start := idle a own p (by rw [queued]; exact List.mem_cons_self)
          subst start
          exact startBound_cycles a own p (cycles.pop queued rfl)
        · exact ⟨r, cycles.job_calm queued rfl fun _ _ p same => bound ⟨p, by cases same; rfl⟩⟩
      all_goals exact ⟨r, cycles.job_calm queued rfl fun _ _ _ same => by cases same⟩

/-- When no job is queued, the loop waits for an accept, or has not started. -/
theorem quiet (cycles : Cycles r w) (idle : w.loop.jobs = []) : w.phase = .accepting ∨ w.phase = .idle := by
  have waits := cycles.waits
  have unkept := cycles.unkept
  rw [Relay.phase_eq cycles.outline]
  cases r
  case handling s d h => cases unkept
  case finishing d => cases unkept
  case dispatched =>
    obtain ⟨a, own, v, queued⟩ := waits
    simp [idle] at queued
  all_goals simp [Relay.phase]

end Cycles

/-! ## Along a run -/

section Runs

variable {config : ServerConfig} {router : Option RouteTable} {bindError : Option String} {w₀ : World}

theorem Cycles.of_booted (ready : booted config router bindError = .ok w₀)
    (concurrent : config.dispatchMode = .concurrent) : Cycles .idle w₀ := by
  unfold booted dispatcherFor at ready
  simp only [concurrent] at ready
  cases created : (WorkerPool.create (some config.maxConcurrency) config.maxPendingConnections :
      Except Failure (WorkerPool Nat CellId)) with
  | error f =>
    rw [created] at ready
    cases ready
  | ok p =>
    rw [created] at ready
    cases ready
    exact ⟨rfl, rfl, rfl, trivial, ⟨fun a acc found => (by cases found), fun c o found => (by cases found),
      fun k o queued => (by cases queued), fun s e f found => (by cases found)⟩⟩

end Runs

end Machine
end HttpStub
