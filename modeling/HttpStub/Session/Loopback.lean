import HttpStub.Session.Server

/-!
# A server on the host's network

A session starts a server on the host's loopback address with an ephemeral
port, which varies from run to run and is therefore shown as `PORT`.  It may
start a second server on the same port.  Then a probe makes one exchange per
request, each on a new connection: it writes the request's bytes, may
finish writing, and collects the reply until the connection closes; the
server is drained after each exchange.  Finally the server stops.

What the host's network does is a `Network`: whether a second listener may
bind a port that one holds, which a host refuses with `EADDRINUSE` unless it
shares ports, and whether the probe's connections reach the server.  A
connection that reaches the server runs on the machine: the server reads the
request, answers it or closes, and the probe waits as long as the server's
read may wait.  A connection that does not reach it collects nothing and
sees no end of stream.  The events of an exchange are what the server logged
and reported since the last one, so those of the first include the server's
start.  A configuration whose worker pool cannot be made fails the session
before anything starts.
-/

namespace HttpStub
namespace Session
namespace Loopback

open Async Machine

/-- The loopback address the server binds. -/
def host : String := "127.0.0.1"

/-- How the ephemeral port is shown. -/
def portLabel : String := "PORT"

/-- One request of the probe. -/
structure Exchange where
  data : List UInt8
  halfClose : Bool
  deriving Repr

/-- What one exchange saw. -/
structure ExchangeReport where
  reply : List UInt8
  sawEnd : Bool
  events : List Event
  deriving Repr

/-- What a session reports. -/
structure Report where
  mode : DispatchMode
  exchanges : List ExchangeReport
  /-- The second start's outcome, when one was asked for. -/
  rebind : Option (Except Failure Unit)
  phase : Phase
  deriving Repr

/-- What the host's network does with a session's sockets. -/
structure Network where
  /-- Whether a listener may bind a port that another listener holds. -/
  sharesPorts : Bool
  /-- Whether the probe's connections reach the server. -/
  reaches : Bool
  deriving Repr

/-- The host the recorded sessions ran on: it refuses a second listener on
the server's port, and the probe's connections. -/
def Network.recorded : Network := ⟨false, false⟩

/-- The error a host gives a listener on an address that another listener
holds. -/
def addressInUse (address : String) : Failure :=
  Failure.system "EADDRINUSE" s!"listen EADDRINUSE: address already in use {address}"

/-- A text as a session on the host shows it: the port as `PORT`, and the
peer of a connection as the probe, which connects from the loopback
address. -/
def maskText (port : Double) (s : String) : String :=
  (s.replace port.render portLabel).replace Endpoint.remoteAddress host

/-- A failure with the port shown as `PORT`, its causes included. -/
def maskFailure (port : Double) : Failure → Failure
  | .mk kind message code none => .mk kind (maskText port message) code none
  | .mk kind message code (some c) => .mk kind (maskText port message) code (some (maskFailure port c))

/-- What a session shows of a notice: the lines logged, without their
arguments, the responses and the connection errors. -/
def shown (port : Double) : Notice → Option Event
  | .log level message _ => some (.log level (maskText port message) [])
  | .response path status => some (.response path status)
  | .connectionError f => some (.connectionError (maskFailure port f))
  | _ => none

/-- The events shown since they were last taken. -/
def takeEvents (port : Double) : Sim (List Event) := do
  let w ← get
  set { w with notices := #[] }
  return w.notices.toList.filterMap (shown port)

/-- Start a second server on the port the first one holds, and stop it if it
starts: the host refuses its listener unless it shares ports.  The probe
still connects to the first server. -/
def rebindOn (net : Network) (port : Double) : Sim (Except Failure Unit) := do
  let first := (← get).current
  if !net.sharesPorts then
    modify fun w => { w with bindError := some (addressInUse s!"{host}:{port.render}") }
  let a ← newAcceptor
  let c ← Machine.bind a { port, host := some host }
  settleAll
  modify fun w => { w with bindError := none, current := first }
  match (← get).loop.outcome? c with
  | some (.rejected f) => return .error f
  | _ =>
    let _ ← closeAcceptor a
    settleAll
    return .ok ()

/-- One exchange that reaches the server: a new connection writes the
request and finishes writing if asked, and the probe waits as long as the
server's read may wait.  A node socket closes by ending its writing first,
so a connection the server closed has seen the end. -/
def reach (x : Exchange) : Sim (List UInt8 × Bool) := do
  match ← connect "probe" with
  | .error _ => return ([], false)
  | .ok c =>
    let some k := (← get).clients[c]? | return ([], false)
    if !x.data.isEmpty then send k.near x.data
    if x.halfClose then finishWrite k.near
    let wait := ((← get).server.map fun srv => timerDelay srv.config.readTimeoutMs).getD 0
    advance wait
    let w ← get
    let chunks := ((w.clients[c]?).map (·.chunks)).getD []
    return (chunks.flatten, (w.sockets[k.near]?.getD {}).closed)

/-- Run one exchange, drain the server, and take what it showed. -/
def exchangeOn (net : Network) (port : Double) (x : Exchange) : Sim ExchangeReport := do
  let (reply, sawEnd) ← if net.reaches then reach x else pure ([], false)
  let _ ← Machine.drain
  settleAll
  return ⟨reply, sawEnd, ← takeEvents port⟩

/-- A session on a server already made: start it, start a second one if
asked, run the exchanges, and stop. -/
def session (net : Network) (rebind : Bool) (exchanges : List Exchange) : Sim Report := do
  let started ← Machine.start
  settleAll
  let port := match (← get).loop.outcome? started with
    | some (.fulfilled (.port p)) => p
    | _ => 0
  let rebound ← if rebind then some <$> rebindOn net port else pure none
  let reports ← exchanges.mapM (exchangeOn net port)
  let _ ← Machine.stop
  settleAll
  let srv := (← get).server
  return {
    mode := (srv.map (·.dispatcher.mode)).getD .sequential
    exchanges := reports
    rebind := rebound.map (·.mapError (maskFailure port))
    phase := (srv.map (·.phase)).getD .stopped }

/-- Run a session on a host's network with this configuration, on the
loopback address and an ephemeral port, or fail as making its worker pool
fails. -/
def run (net : Network) (config : ServerConfig) (rebind : Bool) (exchanges : List Exchange) :
    Except Failure Report :=
  let config := { config with host := host, port := 0 }
  let (made, w) := (Server.dispatcherFor config).run {}
  match made with
  | .error f => .error f
  | .ok d =>
    let w := { w with server := some { config, table := config.routeTable, dispatcher := d } }
    .ok ((session net rebind exchanges).run w).1

end Loopback
end Session
end HttpStub
