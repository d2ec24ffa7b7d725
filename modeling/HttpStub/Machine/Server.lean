import HttpStub.Machine.Acceptor
import HttpStub.Machine.Handler

/-!
# The server

Starting binds a new acceptor.  Once bound, the server logs and announces
the port and runs its accept loop: accept a connection, hand it to the
dispatcher, and wait for the dispatcher before accepting again.  An accept
failure is logged as a warning and announced, and the loop goes on; a
closed acceptor ends it.  A start while started, or after a stop, fails;
a start whose bind fails leaves the server as it was.

Sequential dispatch waits for the handler, so one connection is handled at
a time and the phase is `dispatching` meanwhile.  Concurrent dispatch
submits the handler to a worker pool and returns at once; a connection the
pool refuses is logged and closed.

Stopping drops the queued work, closes every live connection, closes the
acceptor and waits for the accept loop, then announces the close.  The
phase is `stopped` from the moment `stop` is called and stays so.
Draining waits for the dispatcher: the last handler, or an idle pool.
-/

namespace HttpStub
namespace Machine

open Async

/-- Run a handler in a worker slot. -/
def startWorker (s : Nat) : Sim Unit := do
  let done ← handle s
  onSettled done .workerDone

/-- The server's dispatcher, if there is a server. -/
def dispatcher? : Sim (Option Dispatcher) :=
  return (← get).server.map (·.dispatcher)

/-- The dispatcher's pool, if it has one. -/
def pool? : Sim (Option (WorkerPool Nat CellId)) := do
  match ← dispatcher? with
  | some (.concurrent p) => return some p
  | _ => return none

/-- Replace the dispatcher's pool. -/
def setPool (p : WorkerPool Nat CellId) : Sim Unit :=
  modifyServer fun srv => { srv with dispatcher := .concurrent p }

/-- A worker resumes after its handler: report a failure, then start the
next queued connection or release the idle waiters.  Each queued start is
bounded by the queue's length. -/
def workerDone (o : Outcome Value Failure) : Sim Unit := do
  if let .rejected f := o then
    note (.log .error "Connection worker failed:" [f])
  let some p ← pool? | return
  let (p, next) := p.finish
  setPool p
  match next with
  | .start s => startWorker s
  | .idle ws => ws.forM fun w => settle w (.fulfilled .unit)
  | .busy => pure ()

/-- Hand a connection to the dispatcher; the cell settles when the accept
loop may go on. -/
def dispatch (s : Nat) : Sim CellId := do
  match ← dispatcher? with
  | some (.concurrent p) =>
    let (p, admission) := p.submit s
    setPool p
    match admission with
    | .start t => startWorker t
    | .queued => pure ()
    | .refused =>
      log .warn s!"Worker queue full ({p.pending} waiting), dropping connection from {Endpoint.remoteAddress}"
      close s
    settledCell (.fulfilled .unit)
  | _ =>
    let own ← fresh
    let h ← handle s
    modifyServer fun srv => { srv with dispatcher := .sequential h }
    onSettled h (.dispatchDone own)
    return own

/-- Whether the server has been stopped. -/
def stopped : Sim Bool :=
  return ((← get).server.map (·.phase == .stopped)).getD true

/-- Set the phase. -/
def setPhase (p : Phase) : Sim Unit :=
  modifyServer fun srv => { srv with phase := p }

/-- Keep a connection among the live ones until it closes. -/
def track (s : Nat) : Sim Unit := do
  if (← endpoint s).closed then return
  modifyServer fun srv => { srv with live := if srv.live.contains s then srv.live else srv.live ++ [s] }
  listenClose s .tracker

/-- One round of the accept loop: end if stopped, else accept. -/
def loopRound (a : Nat) (own : CellId) : Sim Unit := do
  if ← stopped then
    setPhase .stopped
    settle own (.fulfilled .unit)
  else
    setPhase .accepting
    let next ← accept a
    onSettled next (.loopAccepted a own)

/-- The accept loop resumes after an accept. -/
def loopAccepted (a : Nat) (own : CellId) : Outcome Value Failure → Sim Unit
  | .rejected f => do
    if f.kind == .acceptorClosed then
      setPhase .stopped
      settle own (.fulfilled .unit)
    else
      let err := if f.kind == .accept then f else Failure.accept f.message (some f)
      log .warn s!"{err.message}; still accepting"
      note (.acceptError err)
      loopRound a own
  | .fulfilled (.socket s) => do
    if ← stopped then
      close s
      setPhase .stopped
      settle own (.fulfilled .unit)
    else
      setPhase .dispatching
      track s
      let d ← dispatch s
      onSettled d (.loopDispatched a own)
  | .fulfilled _ => settle own (.fulfilled .unit)

/-- The accept loop resumes after a dispatch; a rejected dispatch ends the
loop with the phase left as it was. -/
def loopDispatched (a : Nat) (own : CellId) : Outcome Value Failure → Sim Unit
  | .fulfilled _ => loopRound a own
  | .rejected f => settle own (.rejected f)

/-- Start the accept loop; its cell settles when the loop ends. -/
def acceptLoop (a : Nat) : Sim CellId := do
  let own ← fresh
  loopRound a own
  return own

/-- Start the server: the cell settles with the port or a failure. -/
def start : Sim CellId := do
  let own ← fresh
  let some srv := (← get).server | return own
  if srv.acceptor.isSome then
    settle own (.rejected (Failure.plain "Server is already started"))
  else if srv.phase == .stopped then
    settle own (.rejected (Failure.plain "Server has been stopped"))
  else
    let a ← newAcceptor
    modifyServer fun srv => { srv with acceptor := some a }
    let b ← bind a ⟨srv.config.port, some srv.config.host, some srv.config.backlog⟩
    onSettled b (.startBound a own)
  return own

/-- Starting resumes after the bind. -/
def startBound (a : Nat) (own : CellId) : Outcome Value Failure → Sim Unit
  | .fulfilled (.port p) => do
    log .info s!"Server listening on port {p.render}"
    note (.listening p)
    let loop ← acceptLoop a
    modifyServer fun srv => { srv with loop := some loop }
    settle own (.fulfilled (.port p))
  | .fulfilled _ => settle own (.fulfilled .unit)
  | .rejected f => do
    modifyServer fun srv => { srv with acceptor := none }
    settle own (.rejected f)

/-- Wait for the accept loop, or for nothing when there is none. -/
def awaitLoop (loop : Option CellId) (own : CellId) : Sim Unit := do
  let c ← match loop with
    | some l => pure l
    | none => settledCell (.fulfilled .unit)
  onSettled c (.stopLoopDone own)

/-- Stop the server; the cell settles after the close is announced. -/
def stop : Sim CellId := do
  let own ← fresh
  let some srv := (← get).server | return own
  modifyServer fun srv => { srv with acceptor := none, loop := none, phase := .stopped }
  if let .concurrent p := srv.dispatcher then
    let (p, _, ws) := p.clear
    setPool p
    ws.forM fun w => settle w (.fulfilled .unit)
  srv.live.forM close
  modifyServer fun srv => { srv with live := [] }
  match srv.acceptor with
  | some a =>
    let c ← closeAcceptor a
    onSettled c (.stopAcceptorClosed srv.loop own)
  | none => awaitLoop srv.loop own
  return own

/-- Stopping resumes after the acceptor closed. -/
def stopAcceptorClosed (loop : Option CellId) (own : CellId) (_ : Outcome Value Failure) :
    Sim Unit :=
  awaitLoop loop own

/-- Stopping resumes after the accept loop ended. -/
def stopLoopDone (own : CellId) (_ : Outcome Value Failure) : Sim Unit := do
  note .closed
  settle own (.fulfilled .unit)

/-- Wait until no dispatched work is left. -/
def drain : Sim CellId := do
  match ← dispatcher? with
  | some (.sequential current) => return current
  | some (.concurrent p) =>
    let w ← fresh
    let (p, idle) := p.onIdle w
    setPool p
    if idle then settle w (.fulfilled .unit)
    return w
  | none => settledCell (.fulfilled .unit)

end Machine
end HttpStub
