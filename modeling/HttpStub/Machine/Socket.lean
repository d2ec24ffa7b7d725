import HttpStub.Machine.Basic

/-!
# Endpoint behaviour

Writing, finishing and closing an endpoint, and what its listeners hear.
A write goes out only while the endpoint is writable: open, not finished,
and with an open peer.  Writing and waiting fails at once with the
endpoint's recorded error, or with `Socket is not writable`; otherwise it
succeeds at once, and the chunk arrives one job later.

The listeners are the parties named by `Hook`: a read settles once, with
the first chunk (cut to the read's buffer size), with no bytes at the end
or at close, or with a read failure on error; the server forgets a
connection that closes; a client collects chunks and completes its reply at
close; a tap collects chunks.
-/

namespace HttpStub
namespace Machine

open Async

/-- Settle a read once, cancelling its timer. -/
def settleReader (r : Nat) (o : Outcome Value Failure) : Sim Unit := do
  match (← get).readers[r]? with
  | some rd =>
    if rd.settled then return
    modify fun w => { w with readers := w.readers.modify r fun x => { x with settled := true } }
    if let some t := rd.timer then
      modify fun w => { w with loop := w.loop.cancelTimer t }
    settle rd.cell o
  | none => return

/-- Tell one listener of an endpoint what happened. -/
def hear (s : Nat) (hook : Hook) (signal : Signal) : Sim Unit := do
  match hook, signal with
  | .reader r, .data chunk =>
    let size := ((← get).readers[r]?.map (·.bufferSize)).getD 0
    settleReader r (.fulfilled (.bytes (Bytes.upTo size chunk)))
  | .reader r, .finished => settleReader r (.fulfilled (.bytes []))
  | .reader r, .closed => settleReader r (.fulfilled (.bytes []))
  | .reader r, .failed err => settleReader r (.rejected (Failure.readFailed err))
  | .tracker, .closed => modifyServer fun srv => { srv with live := srv.live.erase s }
  | .client c, .data chunk =>
    modify fun w => { w with clients := w.clients.modify c fun k => { k with chunks := k.chunks ++ [chunk] } }
  | .client c, .closed =>
    if let some k := (← get).clients[c]? then
      settle k.reply (.fulfilled (.bytes k.chunks.flatten))
  | .tap t, .data chunk =>
    modify fun w => { w with taps := w.taps.modify t (· ++ [chunk]) }
  | _, _ => return

/-- Tell several listeners, in order. -/
def hearAll (s : Nat) (hooks : List Hook) (signal : Signal) : Sim Unit :=
  hooks.forM fun h => hear s h signal

/-- Whether an endpoint may write: open, not finished, with an open peer. -/
def writable (s : Nat) : Sim Bool := do
  let e ← endpoint s
  let p ← endpoint e.peer
  return !e.closed && !e.writeEnded && !p.closed

/-- Write a chunk; it arrives at the peer one job later.  Ignored unless
writable. -/
def send (s : Nat) (chunk : List UInt8) : Sim Unit := do
  if ← writable s then
    defer (.deliver (← endpoint s).peer chunk)

/-- Write a chunk and report at once whether it went out. -/
def sendAndWait (s : Nat) (chunk : List UInt8) : Sim CellId := do
  let e ← endpoint s
  match e.lastError with
  | some err => settledCell (.rejected err)
  | none =>
    if ← writable s then
      send s chunk
      settledCell (.fulfilled .unit)
    else settledCell (.rejected (Failure.plain "Socket is not writable"))

/-- Finish writing: the peer hears the end one job later. -/
def finishWrite (s : Nat) : Sim Unit := do
  let e ← endpoint s
  if e.closed || e.writeEnded then return
  modifyEndpoint s fun x => { x with writeEnded := true }
  defer (.deliverEnd e.peer)

/-- Close an endpoint one job later. -/
def close (s : Nat) : Sim Unit :=
  defer (.shut s)

/-- Register a data listener; it hears the unread chunks at once. -/
def listenData (s : Nat) (hook : Hook) : Sim Unit := do
  let e ← endpoint s
  modifyEndpoint s fun x => { x with onData := x.onData ++ [hook], unread := [] }
  e.unread.forM fun chunk => hear s hook (.data chunk)

/-- Register an end listener. -/
def listenEnd (s : Nat) (hook : Hook) : Sim Unit :=
  modifyEndpoint s fun x => { x with onEnd := x.onEnd ++ [hook] }

/-- Register a close listener. -/
def listenClose (s : Nat) (hook : Hook) : Sim Unit :=
  modifyEndpoint s fun x => { x with onClose := x.onClose ++ [hook] }

/-- Register an error listener. -/
def listenError (s : Nat) (hook : Hook) : Sim Unit :=
  modifyEndpoint s fun x => { x with onError := x.onError ++ [hook] }

/-- A chunk arrives: the data listeners hear it, or it waits unread. -/
def arrive (s : Nat) (chunk : List UInt8) : Sim Unit := do
  let e ← endpoint s
  if e.closed then return
  if e.onData.isEmpty then
    modifyEndpoint s fun x => { x with unread := x.unread ++ [chunk] }
  else hearAll s e.onData (.data chunk)

/-- The end of writing arrives. -/
def arriveEnd (s : Nat) : Sim Unit := do
  let e ← endpoint s
  if e.closed || e.ended then return
  modifyEndpoint s fun x => { x with ended := true }
  hearAll s e.onEnd .finished

/-- Mark one endpoint closed and tell its close listeners. -/
def closeOne (s : Nat) : Sim Unit := do
  let e ← endpoint s
  if e.closed then return
  modifyEndpoint s fun x => { x with closed := true }
  hearAll s e.onClose .closed

/-- Close an endpoint now, and its peer after it. -/
def closeNow (s : Nat) : Sim Unit := do
  let e ← endpoint s
  if e.closed then return
  closeOne s
  closeOne e.peer

/-- Fail an endpoint: record the error, tell the error listeners, close. -/
def fail (s : Nat) (err : Failure) : Sim Unit := do
  let e ← endpoint s
  if e.closed then return
  modifyEndpoint s fun x => { x with lastError := some err }
  hearAll s e.onError (.failed err)
  closeNow s

/-- Make a connected pair of endpoints: the first is the client's. -/
def pair : Sim (Nat × Nat) :=
  modifyGet fun w =>
    let a := w.sockets.size
    let b := a + 1
    ((a, b), { w with sockets := (w.sockets.push { peer := b }).push { peer := a } })

end Machine
end HttpStub
