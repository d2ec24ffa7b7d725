import HttpStub.Machine.Socket

/-!
# Listening and accepting

Binding an acceptor creates a listener, which becomes the one clients
connect to, and asks it to listen.  The bind settles once: with the port
when the listener reports that it listens (the requested port if the
listener no longer reports one), or with a setup failure when the listener
reports an error first.  A failed bind leaves the acceptor unbound, so it
may bind again.  After the bind, each listener error becomes an accept
failure in the acceptor's arrivals.

A connection that is not an in-memory endpoint cannot be taken over; it
arrives as an accept failure.  Connecting or injecting while no listener
listens fails at once.
-/

namespace HttpStub
namespace Machine

open Async

/-- What a listener is handed: one of our endpoints, or something else. -/
inductive Offer where
  | endpoint (id : Nat)
  | foreign
  deriving Repr

/-- The failure of a connection, injection or listen without a listener. -/
def notListening : Failure :=
  Failure.plain "In-memory server is not listening"

/-- Place an arrival with an acceptor, settling a waiter or closing a
connection that comes too late. -/
def deliverArrival (a : Nat) (x : Arrival) : Sim Unit := do
  let (acc, placement) := (← acceptor a).place x
  setAcceptor a acc
  match placement, x with
  | .discard, .socket s => close s
  | .discard, .failure _ => return
  | .queued, _ => return
  | .handed w, .socket s => settle w (.fulfilled (.socket s))
  | .handed w, .failure f => settle w (.rejected f)

/-- A listener's error, as its acceptor takes it. -/
def listenerError (l : Nat) (err : Failure) : Sim Unit := do
  let some lst ← listener? l | return
  if !lst.settled then
    modifyListener l fun x => { x with settled := true }
    let a ← acceptor lst.owner
    setAcceptor lst.owner { a with listener := none }
    let host := lst.request.host.getD "*"
    settle lst.bindCell (.rejected (Failure.setup
      s!"Failed to listen on {host}:{lst.request.port.render}: {err.message}" (some err)))
  else
    deliverArrival lst.owner (.failure (Failure.accept s!"Accept failed: {err.message}" (some err)))

/-- A listener reports that it listens. -/
def listenerReady (l : Nat) : Sim Unit := do
  let some lst ← listener? l | return
  if lst.settled then return
  modifyListener l fun x => { x with settled := true }
  let port := lst.address.getD lst.request.port
  let a ← acceptor lst.owner
  setAcceptor lst.owner { a with boundPort := some port }
  settle lst.bindCell (.fulfilled (.port port))

/-- Hand a connection to a listener, which passes it to its acceptor. -/
def offer (l : Nat) (x : Offer) : Sim (Except Failure Unit) := do
  let some lst ← listener? l | return .error notListening
  if !lst.listening then return .error notListening
  match x with
  | .endpoint s => deliverArrival lst.owner (.socket s)
  | .foreign =>
    deliverArrival lst.owner (.failure (Failure.accept "Could not wrap accepted socket"
      (some (Failure.plain "Expected an InMemoryTcpSocket instance"))))
  return .ok ()

/-- Start listening, or report the bind error one job later. -/
def listen (l : Nat) : Sim Unit := do
  match (← get).bindError with
  | some err => defer (.listenFailed l err)
  | none =>
    let some lst ← listener? l | return
    let port ← if lst.request.port.eqv 0 then
        modifyGet fun w => (Double.ofNat w.nextPort, { w with nextPort := w.nextPort + 1 })
      else pure lst.request.port
    modifyListener l fun x => { x with port := some port, listening := true }
    defer (.listenDone l)

/-- Bind an acceptor: the cell settles with the port or a setup failure. -/
def bind (a : Nat) (req : BindRequest) : Sim CellId := do
  let acc ← acceptor a
  if acc.listener.isSome then
    return ← settledCell (.rejected (Failure.setup "Acceptor is already bound" none))
  let cell ← fresh
  let l ← modifyGet fun w =>
    (w.listeners.size, { w with listeners := w.listeners.push ⟨a, req, cell, false, none, false⟩,
                                current := some w.listeners.size })
  setAcceptor a { acc with listener := some l }
  listen l
  return cell

/-- Wait for the next arrival. -/
def accept (a : Nat) : Sim CellId := do
  let waiter ← fresh
  let (acc, taken) := (← acceptor a).take waiter
  setAcceptor a acc
  match taken with
  | .arrival (.socket s) => settledCell (.fulfilled (.socket s))
  | .arrival (.failure f) => settledCell (.rejected f)
  | .refused => settledCell (.rejected Failure.acceptorClosed)
  | .wait => return waiter

/-- Close an acceptor: refuse its waiters, close queued connections and its
listener.  The cell settles when the listener has closed. -/
def closeAcceptor (a : Nat) : Sim CellId := do
  let (acc, shutdown) := (← acceptor a).shut
  setAcceptor a acc
  match shutdown with
  | none => settledCell (.fulfilled .unit)
  | some sd =>
    sd.refuse.forM fun w => settle w (.rejected Failure.acceptorClosed)
    sd.closeSockets.forM close
    match sd.closeListener with
    | none => settledCell (.fulfilled .unit)
    | some l =>
      let cell ← fresh
      modifyListener l fun x => { x with listening := false, port := none }
      defer (.listenerClosed cell)
      return cell

/-- A new acceptor. -/
def newAcceptor : Sim Nat :=
  modifyGet fun w => (w.acceptors.size, { w with acceptors := w.acceptors.push {} })

/-- The listener clients connect to, if it listens. -/
def listeningNow : Sim (Except Failure Nat) := do
  let w ← get
  match w.current with
  | some l =>
    match w.listeners[l]? with
    | some lst => return if lst.listening then .ok l else .error notListening
    | none => return .error notListening
  | none => return .error notListening

/-- Open a connection to the listener; the client is named `name`. -/
def connect (name : String) : Sim (Except Failure Nat) := do
  match ← listeningNow with
  | .error e => return .error e
  | .ok l =>
    let (near, far) ← pair
    let reply ← fresh
    let c ← modifyGet fun w =>
      (w.clients.size, { w with clients := w.clients.push ⟨name, near, far, [], reply⟩ })
    listenData near (.client c)
    listenClose near (.client c)
    let _ ← offer l (.endpoint far)
    return .ok c

/-- Make the listener report an error. -/
def injectError (message : String) : Sim (Except Failure Unit) := do
  match ← listeningNow with
  | .error e => return .error e
  | .ok l =>
    listenerError l (Failure.plain message)
    return .ok ()

/-- Hand the listener something that is not an endpoint. -/
def injectForeign : Sim (Except Failure Unit) := do
  match ← listeningNow with
  | .error e => return .error e
  | .ok l => offer l .foreign

end Machine
end HttpStub
