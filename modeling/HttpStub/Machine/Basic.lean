import HttpStub.Async.Loop
import HttpStub.Net.Endpoint
import HttpStub.Net.Listener
import HttpStub.Net.Acceptor
import HttpStub.Pool
import HttpStub.Config.Basic
import HttpStub.Http.Request

/-!
# The machine

A server, its acceptors and an in-memory network run together on one
cooperative loop.  Every step of the code that waits, and every piece of
work queued for later, is a `Reaction`; running a job is running one of
them.  The loop's cells carry `Value`s and fail with `Failure`s.

What an observer sees is recorded as `Notice`s, in the order it happens:
log lines, the server's events, connections whose client saw them close,
and outcomes of operations that settle after the step that started them.

This module holds the state and the primitive moves on it; the modules
beside it give the parts their behaviour.
-/

namespace HttpStub
namespace Machine

open Async

/-- What a cell of the machine holds when it is fulfilled. -/
inductive Value where
  | unit
  | port (n : Double)
  | socket (id : Nat)
  | bytes (b : List UInt8)
  | request (r : Option Request)
  deriving Repr

/-- The life of a server. -/
inductive Phase where
  | idle
  | accepting
  | dispatching
  | stopped
  deriving DecidableEq, Repr

/-- The name of a phase. -/
def Phase.name : Phase → String
  | .idle => "idle"
  | .accepting => "accepting"
  | .dispatching => "dispatching"
  | .stopped => "stopped"

/-- How a server hands connections to its handler. -/
inductive Dispatcher where
  /-- One at a time; the cell of the handler that ran last. -/
  | sequential (current : CellId)
  /-- On a pool of workers whose idle waiters are cells. -/
  | concurrent (pool : WorkerPool Nat CellId)
  deriving Repr

/-- The dispatch mode of a dispatcher. -/
def Dispatcher.mode : Dispatcher → DispatchMode
  | .sequential _ => .sequential
  | .concurrent _ => .concurrent

/-- The state of the server. -/
structure Server where
  config : ServerConfig
  table : RouteTable
  dispatcher : Dispatcher
  phase : Phase := .idle
  acceptor : Option Nat := none
  loop : Option CellId := none
  /-- Connections from dispatch until they close, in order of dispatch. -/
  live : List Nat := []
  /-- The message of the error a listener of the server's response event
  throws, if one does. -/
  responseFault : Option String := none
  deriving Repr

/-- One read of a request from an endpoint. -/
structure Reader where
  cell : CellId
  bufferSize : Double
  timeoutMs : Double
  settled : Bool := false
  timer : Option Nat := none
  deriving Repr

/-- The client end of a connection, collecting what the server sends. -/
structure Client where
  name : String
  /-- The client's endpoint. -/
  near : Nat
  /-- The server's endpoint. -/
  far : Nat
  chunks : List (List UInt8) := []
  reply : CellId
  deriving Repr

/-- Everything that resumes or runs later. -/
inductive Reaction where
  /-- Chunk arrives at an endpoint. -/
  | deliver (target : Nat) (chunk : List UInt8)
  /-- The end of writing arrives at an endpoint. -/
  | deliverEnd (target : Nat)
  /-- An endpoint closes. -/
  | shut (socket : Nat)
  /-- A listener reports that it listens. -/
  | listenDone (listener : Nat)
  /-- A listener reports an error. -/
  | listenFailed (listener : Nat) (err : Failure)
  /-- A listener reports that it closed; the cell settles. -/
  | listenerClosed (cell : CellId)
  /-- A read's timer fires. -/
  | readTimedOut (reader : Nat)
  /-- Reading a request resumes after the raw read. -/
  | requestRead (own : CellId)
  /-- Writing resumes after the send. -/
  | writeSent (own : CellId)
  /-- Responding resumes after the write. -/
  | respondWritten (socket : Nat) (path : String) (status : Double) (summary : String)
      (own : CellId)
  /-- Serving resumes after reading the request. -/
  | serveRead (socket : Nat) (own : CellId)
  /-- Serving resumes after responding. -/
  | serveResponded (own : CellId)
  /-- Handling resumes after serving. -/
  | handleServed (socket : Nat) (own : CellId)
  /-- Sequential dispatch resumes after the handler. -/
  | dispatchDone (own : CellId)
  /-- A worker resumes after its handler. -/
  | workerDone
  /-- Starting resumes after the bind. -/
  | startBound (acceptor : Nat) (own : CellId)
  /-- The accept loop resumes after an accept. -/
  | loopAccepted (acceptor : Nat) (own : CellId)
  /-- The accept loop resumes after a dispatch. -/
  | loopDispatched (acceptor : Nat) (own : CellId)
  /-- Stopping resumes after closing the acceptor. -/
  | stopAcceptorClosed (loop : Option CellId) (own : CellId)
  /-- Stopping resumes after the accept loop ended. -/
  | stopLoopDone (own : CellId)
  /-- An observer sees the outcome of the operation of a step. -/
  | opSettled (step : Nat) (acceptId : Option String)
  /-- An observer sees a client's reply complete. -/
  | replyClosed (client : Nat)
  deriving Repr

/-- What an observer sees. -/
inductive Notice where
  | log (level : LogLevel) (message : String) (args : List Failure)
  | listening (port : Double)
  | acceptError (f : Failure)
  | connectionError (f : Failure)
  | response (path : String) (status : Double)
  | closed
  | clientClosed (client : String) (received : List UInt8)
  | late (step : Nat) (outcome : Outcome Value Failure)
  deriving Repr

/-- The whole state of the machine. -/
structure World where
  loop : Loop Reaction Value Failure := {}
  sockets : Array Endpoint := #[]
  listeners : Array Listener := #[]
  /-- The next port handed out for port 0. -/
  nextPort : Nat := 41000
  /-- The listener created last: the one clients connect to. -/
  current : Option Nat := none
  /-- The error every bind fails with, if any. -/
  bindError : Option Failure := none
  acceptors : Array Acceptor := #[]
  readers : Array Reader := #[]
  clients : Array Client := #[]
  taps : Array (List (List UInt8)) := #[]
  server : Option Server := none
  notices : Array Notice := #[]
  /-- The step that runs now, and how its operation settled. -/
  step : Nat := 0
  stepOutcome : Option (Outcome Value Failure) := none
  /-- Accepted endpoints by the name of the accept that got them. -/
  accepted : List (String × Nat) := []

/-- Code that runs on the machine. -/
abbrev Sim := StateM World

/-- A new pending cell. -/
def fresh : Sim CellId :=
  modifyGet fun w => let (c, l) := w.loop.fresh; (c, { w with loop := l })

/-- A new settled cell. -/
def settledCell (o : Outcome Value Failure) : Sim CellId :=
  modifyGet fun w => let (c, l) := w.loop.settledCell o; (c, { w with loop := l })

/-- Settle a cell. -/
def settle (c : CellId) (o : Outcome Value Failure) : Sim Unit :=
  modify fun w => { w with loop := w.loop.settle c o }

/-- Resume `k` once the cell settles. -/
def onSettled (c : CellId) (k : Reaction) : Sim Unit :=
  modify fun w => { w with loop := w.loop.onSettled c k }

/-- Queue `k` as a job of its own. -/
def defer (k : Reaction) : Sim Unit :=
  modify fun w => { w with loop := w.loop.defer k }

/-- Record what an observer sees. -/
def note (n : Notice) : Sim Unit :=
  modify fun w => { w with notices := w.notices.push n }

/-- Record a log line without arguments. -/
def log (level : LogLevel) (message : String) : Sim Unit :=
  note (.log level message [])

/-- The state of an endpoint. -/
def endpoint (s : Nat) : Sim Endpoint :=
  return (← get).sockets[s]?.getD {}

/-- Change the state of an endpoint. -/
def modifyEndpoint (s : Nat) (f : Endpoint → Endpoint) : Sim Unit :=
  modify fun w => { w with sockets := w.sockets.modify s f }

/-- The state of a listener, if it exists. -/
def listener? (l : Nat) : Sim (Option Listener) :=
  return (← get).listeners[l]?

/-- Change the state of a listener. -/
def modifyListener (l : Nat) (f : Listener → Listener) : Sim Unit :=
  modify fun w => { w with listeners := w.listeners.modify l f }

/-- The state of an acceptor. -/
def acceptor (a : Nat) : Sim Acceptor :=
  return (← get).acceptors[a]?.getD {}

/-- Replace the state of an acceptor. -/
def setAcceptor (a : Nat) (x : Acceptor) : Sim Unit :=
  modify fun w => { w with acceptors := w.acceptors.modify a fun _ => x }

/-- Change the state of the server, if there is one. -/
def modifyServer (f : Server → Server) : Sim Unit :=
  modify fun w => { w with server := w.server.map f }

end Machine
end HttpStub
