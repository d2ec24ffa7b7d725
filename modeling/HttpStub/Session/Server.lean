import HttpStub.Session.Client

/-!
# A scripted server

A session builds a server over the in-memory network and runs a script of
operations on it.  After each operation the machine settles: every job the
operation caused has run.  Each step reports the operation's answer, what
was seen meanwhile, the server's phase and its dispatch mode.  An operation
that returns a cell answers its outcome if the cell settled during the step,
and otherwise is pending; its outcome then shows up later as a late event.
A sleep lets the clock run for the time asked, but for no more than
`sleepLimit`.
-/

namespace HttpStub
namespace Session
namespace Server

open Async Machine

/-- One operation of a server script. -/
inductive Op where
  | start
  | stop
  | drain
  | client (op : ClientOp)
  | state
  | settle
  | sleep (ms : Nat)
  deriving Repr

/-- What one step reports. -/
structure Report where
  answer : Answer
  events : List Event
  phase : Phase
  mode : DispatchMode
  deriving Repr

/-- The longest a script's sleep lets the clock run, in milliseconds. -/
def sleepLimit : Nat := 500

/-- Run operation `k`, up to its answer. -/
def begin (k : Nat) : Op → Sim Answer
  | .start => do watch k none (← Machine.start)
  | .stop => do watch k none (← Machine.stop)
  | .drain => do watch k none (← Machine.drain)
  | .client op => op.run
  | .state | .settle | .sleep _ => return .none

/-- Run step `k` and report it. -/
def step (k : Nat) (op : Op) : Sim Report := do
  beginStep k
  let answer ← begin k op
  match op with
  | .sleep ms => advance (min ms sleepLimit)
  | _ => settleAll
  let w ← get
  let srv := w.server
  return {
    answer := finalAnswer w answer
    events := w.notices.toList.map (eventOf w)
    phase := (srv.map (·.phase)).getD .idle
    mode := (srv.map (·.dispatcher.mode)).getD .sequential }

/-- The dispatcher a configuration asks for, or the failure of making its
pool. -/
def dispatcherFor (config : ServerConfig) : Sim (Except Failure Dispatcher) := do
  match config.dispatchMode with
  | .sequential => return .ok (.sequential (← settledCell (.fulfilled .unit)))
  | .concurrent =>
    match WorkerPool.create (some config.maxConcurrency) config.maxPendingConnections with
    | .ok p => return .ok (.concurrent p)
    | .error f => return .error f

/-- Run a script on a new server with this configuration, serving `router`
if given and else the table the configuration names; every bind fails
with `bindError` if given. -/
def run (config : ServerConfig) (router : Option RouteTable) (bindError : Option String)
    (ops : List Op) : Except Failure (List Report) :=
  let init : World := { bindError := bindError.map Failure.plain }
  let (made, w) := (dispatcherFor config).run init
  match made with
  | .error f => .error f
  | .ok d =>
    let table := router.getD config.routeTable
    let w := { w with server := some { config, table, dispatcher := d } }
    let go : Sim (List Report) :=
      (ops.zipIdx).mapM fun (op, k) => step k op
    .ok (go.run w).1

end Server
end Session
end HttpStub
