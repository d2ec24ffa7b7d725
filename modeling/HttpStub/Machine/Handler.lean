import HttpStub.Machine.Socket
import HttpStub.Http.Plan

/-!
# Reading requests and answering them

A read of a request registers its listeners on the endpoint and settles
with the first thing it hears.  It fails at once with the endpoint's
recorded error, and settles at once with no bytes when the endpoint has
already closed or heard the end.  A positive timeout fails the read when
nothing settled it in time.

Handling a connection reads one request and answers it as `Plan.ofRequest`
decides, then closes the connection on every path.  After a successful
write, the handler logs the request unless told to be quiet, and reports
the response.  A read or write failure is logged as a warning and
reported; any other failure is logged as an error.

Each of these runs in stages: every stage that waits on a cell is resumed
by a reaction, and every stage settles a cell of its own when it is done.
-/

namespace HttpStub
namespace Machine

open Async

/-- The whole milliseconds a timer of `ms` waits: a delay that is not from
one to `2^31 - 1` waits one millisecond, and a fraction rounds up. -/
def timerDelay (ms : Double) : Nat :=
  if Double.le 1 ms && Double.le ms (Double.ofNat (Nat.pow 2 31 - 1)) then ms.ceilNat else 1

/-- Start one raw read, which keeps the bytes of a chunk before position
`bufferSize` (see `Bytes.upTo`); only a positive timeout sets a timer. -/
def readRaw (s : Nat) (bufferSize timeoutMs : Double) : Sim CellId := do
  let e ← endpoint s
  if let some err := e.lastError then
    return ← settledCell (.rejected (Failure.readFailed err))
  let cell ← fresh
  let r ← modifyGet fun w =>
    (w.readers.size,
      { w with readers := w.readers.push ⟨cell, bufferSize, timeoutMs, false, none⟩ })
  listenData s (.reader r)
  listenEnd s (.reader r)
  listenClose s (.reader r)
  listenError s (.reader r)
  let e ← endpoint s
  if e.closed || e.ended then
    settleReader r (.fulfilled (.bytes []))
    return cell
  if Double.lt 0 timeoutMs then
    let t ← modifyGet fun w =>
      let (t, l) := w.loop.startTimer (timerDelay timeoutMs) (.readTimedOut r)
      (t, { w with loop := l })
    modify fun w => { w with readers := w.readers.modify r fun x => { x with timer := some t } }
  return cell

/-- A read's timer fires. -/
def readTimedOut (r : Nat) : Sim Unit := do
  let ms := ((← get).readers[r]?.map (·.timeoutMs)).getD 0
  settleReader r (.rejected (Failure.readTimeout ms))

/-- Read a request: the cell settles with the parsed request, or `none`
when the bytes hold no request line. -/
def readRequest (s : Nat) (bufferSize timeoutMs : Double) : Sim CellId := do
  let own ← fresh
  let raw ← readRaw s bufferSize timeoutMs
  onSettled raw (.requestRead own)
  return own

/-- Reading a request resumes after the raw read. -/
def requestRead (own : CellId) : Outcome Value Failure → Sim Unit
  | .fulfilled (.bytes b) => settle own (.fulfilled (.request (Request.parse? b)))
  | .fulfilled _ => settle own (.fulfilled (.request none))
  | .rejected f => settle own (.rejected f)

/-- Write a response in one piece. -/
def writeResponse (s : Nat) (r : Response) : Sim CellId := do
  let own ← fresh
  let sent ← sendAndWait s r.serialize
  onSettled sent (.writeSent own)
  return own

/-- Writing resumes after the send. -/
def writeSent (own : CellId) : Outcome Value Failure → Sim Unit
  | .fulfilled _ => settle own (.fulfilled .unit)
  | .rejected err => settle own (.rejected (Failure.writeFailed err))

/-- Write a response, then log and report it. -/
def respond (s : Nat) (path : String) (r : Response) (summary : String) : Sim CellId := do
  let own ← fresh
  let written ← writeResponse s r
  onSettled written (.respondWritten s path r.status summary own)
  return own

/-- Responding resumes after the write and tells the response listeners,
whose throw fails the response. -/
def respondWritten (path : String) (status : Double) (summary : String) (own : CellId) :
    Outcome Value Failure → Sim Unit
  | .fulfilled _ => do
    let srv := (← get).server
    if !(srv.map (·.config.quiet)).getD false then
      log .info s!"{summary} {status.render} - {Endpoint.remoteAddress}"
    note (.response path status)
    settle own ((srv.bind (·.responseFault)).elim (.fulfilled .unit) fun m => .rejected (Failure.plain m))
  | .rejected f => settle own (.rejected f)

/-- Serve one connection: read, then respond. -/
def serve (s : Nat) : Sim CellId := do
  let own ← fresh
  let cfg := ((← get).server.map (·.config)).getD ServerConfig.default
  let req ← readRequest s cfg.readBufferSize cfg.readTimeoutMs
  onSettled req (.serveRead s own)
  return own

/-- Serving resumes after reading the request: respond as planned, or
close without a word. -/
def serveRead (s : Nat) (own : CellId) : Outcome Value Failure → Sim Unit
  | .rejected f => settle own (.rejected f)
  | .fulfilled v => do
    let some srv := (← get).server | return
    let req := match v with
      | .request r => r
      | _ => none
    match Plan.ofRequest srv.config.emptyPolicy srv.table req with
    | .dismiss =>
      log .debug s!"Empty request from {Endpoint.remoteAddress}, closing"
      settle own (.fulfilled .unit)
    | .respond path response summary =>
      let r ← respond s path response summary
      onSettled r (.serveResponded own)

/-- Serving resumes after responding. -/
def serveResponded (own : CellId) (o : Outcome Value Failure) : Sim Unit :=
  settle own o

/-- Handle one connection; the cell always settles with success. -/
def handle (s : Nat) : Sim CellId := do
  let own ← fresh
  let served ← serve s
  onSettled served (.handleServed s own)
  return own

/-- Handling resumes after serving: report a failure, then close. -/
def handleServed (s : Nat) (own : CellId) (o : Outcome Value Failure) : Sim Unit := do
  match o with
  | .rejected f =>
    if f.isTransfer then
      log .warn s!"{f.message} ({Endpoint.remoteAddress})"
      note (.connectionError f)
    else note (.log .error "Unexpected connection failure:" [f])
  | .fulfilled _ => pure ()
  close s
  settle own (.fulfilled .unit)

end Machine
end HttpStub
