import HttpStub.Session.Server

namespace HttpStub

namespace Machine

theorem bind_run {α β : Type} (x : Sim α) (f : α → Sim β) (w : World) :
    (x >>= f).run w = (f (x.run w).1).run (x.run w).2 := rfl

theorem pure_run {α : Type} (a : α) (w : World) : (pure a : Sim α).run w = (a, w) := rfl

theorem get_run (w : World) : (get : Sim World).run w = (w, w) := rfl

/-! ## Running one primitive -/

section Primitives

open Async

variable (w : World)

theorem fresh_run : fresh.run w = (w.loop.cells.size, { w with loop := w.loop.fresh.2 }) := rfl

theorem settledCell_run (o : Outcome Value Failure) :
    (settledCell o).run w = (w.loop.cells.size, { w with loop := (w.loop.settledCell o).2 }) := rfl

theorem settle_run (c : CellId) (o : Outcome Value Failure) :
    (settle c o).run w = ((), { w with loop := w.loop.settle c o }) := rfl

theorem onSettled_run (c : CellId) (k : Reaction) :
    (onSettled c k).run w = ((), { w with loop := w.loop.onSettled c k }) := rfl

theorem defer_run (k : Reaction) : (defer k).run w = ((), { w with loop := w.loop.defer k }) := rfl

theorem note_run (n : Notice) : (note n).run w = ((), { w with notices := w.notices.push n }) := rfl

theorem endpoint_run (s : Nat) : (endpoint s).run w = (w.sockets[s]?.getD {}, w) := rfl

theorem modifyEndpoint_run (s : Nat) (f : Endpoint → Endpoint) :
    (modifyEndpoint s f).run w = ((), { w with sockets := w.sockets.modify s f }) := rfl

theorem listener?_run (l : Nat) : (listener? l).run w = (w.listeners[l]?, w) := rfl

theorem modifyListener_run (l : Nat) (f : Listener → Listener) :
    (modifyListener l f).run w = ((), { w with listeners := w.listeners.modify l f }) := rfl

theorem acceptor_run (a : Nat) : (acceptor a).run w = (w.acceptors[a]?.getD {}, w) := rfl

theorem setAcceptor_run (a : Nat) (x : Acceptor) :
    (setAcceptor a x).run w = ((), { w with acceptors := w.acceptors.modify a fun _ => x }) := rfl

theorem modifyServer_run (f : Server → Server) :
    (modifyServer f).run w = ((), { w with server := w.server.map f }) := rfl

end Primitives

/-! ## Settling a read -/

open Async

/-- The loop once a read's timer, if it has one, is cancelled. -/
def Reader.disarm (rd : Reader) (l : Loop Reaction Value Failure) : Loop Reaction Value Failure :=
  match rd.timer with
  | some t => l.cancelTimer t
  | none => l

namespace Reader

variable (rd : Reader) (l : Loop Reaction Value Failure)

@[simp] theorem cells_disarm : (rd.disarm l).cells = l.cells := by
  unfold disarm
  split <;> rfl

@[simp] theorem jobs_disarm : (rd.disarm l).jobs = l.jobs := by
  unfold disarm
  split <;> rfl

theorem mem_timers_disarm {t : Timer Reaction} (mem : t ∈ (rd.disarm l).timers) : t ∈ l.timers := by
  unfold disarm at mem
  split at mem
  · exact (List.mem_filter.1 mem).1
  · exact mem

end Reader

theorem settleReader_run_of_settled {i : Nat} {w : World} (o : Outcome Value Failure)
    (settled : ∀ rd, w.readers[i]? = some rd → rd.settled = true) :
    (settleReader i o).run w = ((), w) := by
  cases found : w.readers[i]? with
  | none => simp only [settleReader, bind_run, get_run, found]; rfl
  | some rd => simp only [settleReader, bind_run, get_run, found, settled rd found]; rfl

theorem settleReader_run {i : Nat} {w : World} {rd : Reader} (o : Outcome Value Failure)
    (found : w.readers[i]? = some rd) (unsettled : rd.settled = false) :
    ((settleReader i o).run w).2 =
      { w with readers := w.readers.modify i fun x => { x with settled := true },
               loop := (rd.disarm w.loop).settle rd.cell o } := by
  simp only [settleReader, bind_run, get_run, found, unsettled]
  cases timer : rd.timer <;> simp only [Reader.disarm, timer] <;> rfl

theorem jobs_settle_of_quiet {l : Loop Reaction Value Failure} {c : CellId}
    (quiet : ∀ ks, l.cells[c]? = some (.pending ks) → ks = []) (o : Outcome Value Failure) :
    (l.settle c o).jobs = l.jobs := by
  unfold Loop.settle
  split
  · next ks found => simp [quiet ks found]
  · rfl

end Machine

namespace Session
namespace Server

/-!
# The moves of a scripted server

A script runs each operation and then lets every job it caused run.  The
code it drives is asynchronous, so what matters for its guarantees is what
can happen between any two of those jobs: another operation of the script,
the next job, a due timer, time passing, or the network deciding how binds
end.  A `Move` is one of these, and a run is any sequence of moves from the
world a script starts in.  Every world a script passes through is reached
by such a run, but runs reach more: an operation may come between any two
jobs, as code called back by the server could do.

Statements about the server are made over every run: of `Move.run ms w`
for every list of moves `ms`, and of the next move from there.
-/

open Async Machine

/-- One thing that can happen to a scripted server. -/
inductive Move where
  /-- A new step of the script begins. -/
  | begin (k : Nat)
  /-- The script's operation, watched as step `k`. -/
  | op (k : Nat) (o : Op)
  /-- The next queued job runs. -/
  | job
  /-- The earliest timer due by `limit` fires. -/
  | fire (limit : Nat)
  /-- The clock reads `t`. -/
  | clock (t : Nat)
  /-- From now on every bind fails with `e`, or none does. -/
  | network (e : Option Failure)

/-- Run the next job, if there is one. -/
def runNext : Sim Unit := do
  let w ← get
  match w.loop.next? with
  | some (j, loop) =>
    set { w with loop }
    runJob j
  | none => pure ()

/-- The world after a move. -/
def Move.apply : Move → World → World
  | .begin k, w => ((beginStep k).run w).2
  | .op k o, w => ((Server.begin k o).run w).2
  | .job, w => (runNext.run w).2
  | .fire limit, w =>
    match w.loop.fireDue? limit with
    | some loop => { w with loop }
    | none => w
  | .clock t, w => { w with loop := { w.loop with clock := t } }
  | .network e, w => { w with bindError := e }

/-- The world after a run of moves. -/
def Move.run (ms : List Move) (w : World) : World :=
  ms.foldl (fun w m => m.apply w) w

@[simp] theorem Move.run_nil (w : World) : Move.run [] w = w := rfl

@[simp] theorem Move.run_append (ms ms' : List Move) (w : World) :
    Move.run (ms ++ ms') w = Move.run ms' (Move.run ms w) := by
  simp [Move.run, List.foldl_append]

@[simp] theorem Move.run_cons (m : Move) (ms : List Move) (w : World) :
    Move.run (m :: ms) w = Move.run ms (m.apply w) := rfl

/-- The world a server script starts in: a server with this configuration
over a network that has seen nothing yet. -/
def booted (config : ServerConfig) (router : Option RouteTable) (bindError : Option String) :
    Except Failure World :=
  let init : World := { bindError := bindError.map Failure.plain }
  let (made, w) := (dispatcherFor config).run init
  match made with
  | .error f => .error f
  | .ok d =>
    .ok { w with server := some { config, table := router.getD config.routeTable, dispatcher := d } }

theorem run_eq_booted (config : ServerConfig) (router : Option RouteTable)
    (bindError : Option String) (ops : List Op) :
    run config router bindError ops =
      (booted config router bindError).map fun w =>
        ((ops.zipIdx.mapM fun (op, k) => step k op).run w).1 := by
  unfold run booted
  simp only
  generalize (dispatcherFor config).run _ = made
  obtain ⟨made, w⟩ := made
  cases made <;> rfl

private theorem id_pure {α : Type} (a : α) : (pure a : Id α) = a := rfl

/-- Settling within a budget of jobs is running that many jobs: once the
queue is empty, running the next job does nothing. -/
theorem settleWithin_eq_run (n : Nat) (w : World) :
    ((settleWithin n).run w).2 = Move.run (List.replicate n .job) w := by
  induction n generalizing w with
  | zero => rfl
  | succ n ih =>
    rw [List.replicate_succ, Move.run_cons, ← ih]
    simp only [settleWithin, Move.apply, runNext, StateT.run_bind, StateT.run_get, pure_bind]
    cases queued : w.loop.next? with
    | some next => rfl
    | none =>
      have idle : ∀ m, ((settleWithin m).run w).2 = w := by
        intro m
        cases m with
        | zero => rfl
        | succ m =>
          simp only [settleWithin, StateT.run_bind, StateT.run_get, pure_bind, queued]
          rfl
      exact (idle n).symm

theorem settleAll_reached : ∃ js, ∀ w, ((settleAll).run w).2 = Move.run js w :=
  ⟨_, settleWithin_eq_run jobBudget⟩

/-- A due timer fires, everything it causes settles, and the rest of the
budget goes on. -/
theorem fireWithin_of_due {limit n : Nat} {w : World} {loop : Loop Reaction Value Failure}
    (due : w.loop.fireDue? limit = some loop) :
    ((fireWithin limit (n + 1)).run w).2 = ((fireWithin limit n).run ((settleAll).run { w with loop }).2).2 := by
  rw [fireWithin, StateT.run_bind, StateT.run_get, pure_bind]
  show (StateT.run (match w.loop.fireDue? limit with
    | some loop => do set { w with loop }; settleAll; fireWithin limit n
    | none => pure ()) w).2 = _
  rw [due, StateT.run_bind, StateT.run_set, pure_bind, StateT.run_bind]
  rfl

theorem fireWithin_of_none {limit n : Nat} {w : World} (idle : w.loop.fireDue? limit = none) :
    ((fireWithin limit (n + 1)).run w).2 = w := by
  rw [fireWithin, StateT.run_bind, StateT.run_get, pure_bind]
  show (StateT.run (match w.loop.fireDue? limit with
    | some loop => do set { w with loop }; settleAll; fireWithin limit n
    | none => pure ()) w).2 = _
  rw [idle]
  rfl

theorem fireWithin_reached (limit n : Nat) (w : World) :
    ∃ ms, ((fireWithin limit n).run w).2 = Move.run ms w := by
  obtain ⟨js, settled⟩ := settleAll_reached
  induction n generalizing w with
  | zero => exact ⟨[], rfl⟩
  | succ n ih =>
    cases due : w.loop.fireDue? limit with
    | some loop =>
      obtain ⟨ms, rest⟩ := ih (((settleAll).run { w with loop }).2)
      refine ⟨.fire limit :: js ++ ms, ?_⟩
      rw [fireWithin_of_due due, rest, settled, Move.run_append, Move.run_cons]
      simp only [Move.apply, due]
    | none => exact ⟨[], fireWithin_of_none due⟩

theorem advance_reached (ms : Nat) (w : World) :
    ∃ moves, ((advance ms).run w).2 = Move.run moves w := by
  obtain ⟨js, settled⟩ := settleAll_reached
  let limit := (Move.run js w).loop.clock + ms
  obtain ⟨fired, eq⟩ := fireWithin_reached limit timerBudget (Move.run js w)
  refine ⟨js ++ fired ++ [.clock limit] ++ js, ?_⟩
  rw [advance]
  simp only [bind_run, StateT.run_get, StateT.run_modify, id_pure, settled]
  rw [eq]
  simp only [Move.run_append, Move.run_cons, Move.run_nil, Move.apply]
  rfl

/-- What a step does after its operation: let it settle, or let time pass. -/
def settleFor : Op → Sim Unit
  | .sleep ms => advance (min ms sleepLimit)
  | _ => settleAll

/-- A step's report of the world it ends in. -/
def reportOf (answer : Answer) : Sim Report := do
  let w ← get
  return {
    answer := finalAnswer w answer
    events := w.notices.toList.map (eventOf w)
    phase := (w.server.map (·.phase)).getD .idle
    mode := (w.server.map (·.dispatcher.mode)).getD .sequential }

theorem step_eq (k : Nat) (op : Op) :
    step k op = (do beginStep k; let answer ← Server.begin k op; settleFor op; reportOf answer) := by
  cases op <;> rfl

theorem settleFor_reached (op : Op) (w : World) : ∃ ms, ((settleFor op).run w).2 = Move.run ms w := by
  cases op
  case sleep ms => exact advance_reached _ _
  all_goals exact ⟨_, settleWithin_eq_run jobBudget w⟩

theorem step_reached (k : Nat) (op : Op) (w : World) :
    ∃ ms, ((step k op).run w).2 = Move.run ms w := by
  obtain ⟨ms, settled⟩ := settleFor_reached op (Move.run [.begin k, .op k op] w)
  refine ⟨[.begin k, .op k op] ++ ms, ?_⟩
  rw [Move.run_append, ← settled, step_eq, bind_run, bind_run, bind_run, reportOf, bind_run,
    StateT.run_get, id_pure]
  rfl

end Server
end Session
end HttpStub