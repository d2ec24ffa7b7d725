import HttpStub.Session.Client

/-!
# A scripted acceptor

A session runs an acceptor over the in-memory network, with the client
operations of `ClientOp` and its own: bind, accept, close, read what
arrives on an accepted connection, and look at the bound port.  Steps
report like those of a server script, with the acceptor's port in place of
the server's phase.
-/

namespace HttpStub
namespace Session
namespace Acceptor

open Async Machine

/-- One operation of an acceptor script. -/
inductive Op where
  | bind (req : BindRequest)
  | accept (id : String)
  | read (id : String)
  | close
  | port
  | settle
  | client (op : ClientOp)
  deriving Repr

/-- What one step reports. -/
structure Report where
  answer : Answer
  events : List Event
  port : Option Double
  deriving Repr

/-- The acceptor of a session. -/
def theAcceptor : Nat := 0

/-- The failure of reading from an accept that got no connection. -/
def notAccepted (id : String) : Failure :=
  Failure.plain s!"No connection accepted as {id}"

/-- Run operation `k`, up to its answer; a read answers the tap it made. -/
def begin (k : Nat) : Op → Sim (Answer × Option Nat)
  | .bind req => do return (← watch k none (← Machine.bind theAcceptor req), none)
  | .accept id => do return (← watch k (some id) (← Machine.accept theAcceptor), none)
  | .read id => do
    match ((← get).accepted.lookup id) with
    | some s =>
      let t ← modifyGet fun w => (w.taps.size, { w with taps := w.taps.push [] })
      listenData s (.tap t)
      return (.none, some t)
    | none => return (.failed (notAccepted id), none)
  | .close => do return (← watch k none (← closeAcceptor theAcceptor), none)
  | .port | .settle => return (.none, none)
  | .client op => do return (← op.run, none)

/-- Run step `k` and report it. -/
def step (k : Nat) (op : Op) : Sim Report := do
  beginStep k
  let (answer, tap) ← begin k op
  settleAll
  let w ← get
  let answer := match tap with
    | some t => .chunks (w.taps[t]?.getD [])
    | none => finalAnswer w answer
  return {
    answer
    events := w.notices.toList.map (eventOf w)
    port := (w.acceptors[theAcceptor]?.bind (·.boundPort)) }

/-- Run a script on a new acceptor; every bind fails with `bindError` if
given. -/
def run (bindError : Option String) (ops : List Op) : List Report :=
  let init : World := { bindError := bindError.map Failure.plain, acceptors := #[{}] }
  let go : Sim (List Report) := (ops.zipIdx).mapM fun (op, k) => step k op
  (go.run init).1

end Acceptor
end Session
end HttpStub
