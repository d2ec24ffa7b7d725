import HttpStub.Machine.Run

/-!
# Scripted clients

The operations a script performs on the in-memory network: connect named
clients, send through them, finish or close them, fail the server's end of
their connection, make the listener fail, hand it something that is not a
connection, and look at whether a client's connection is closed.

What a script sees is reported in its own terms: a connection is named by
the client at its other end, and values are the port, nothing, or such a
connection.
-/

namespace HttpStub
namespace Session

open Async Machine

/-- A client operation. -/
inductive ClientOp where
  | connect (client : String)
  | request (client : String) (data : List UInt8)
  | send (client : String) (data : List UInt8)
  | finish (client : String)
  | close (client : String)
  | failServer (client : String) (message : String)
  | injectAcceptError (message : String)
  | injectForeign
  | clientState (client : String)
  deriving Repr

/-- A fulfilled value as a script sees it. -/
inductive Reply where
  | nothing
  | port (n : Double)
  /-- The server's end of the connection of this client. -/
  | socketOf (client : String)
  deriving DecidableEq, Repr

/-- What an operation answers in its step. -/
inductive Answer where
  | none
  | settled (o : Outcome Reply Failure)
  | pending
  | failed (f : Failure)
  | closed (b : Bool)
  | chunks (cs : List (List UInt8))
  deriving Repr

/-- What a script sees happen. -/
inductive Event where
  | log (level : LogLevel) (message : String) (args : List Failure)
  | listening (port : Double)
  | acceptError (f : Failure)
  | connectionError (f : Failure)
  | response (path : String) (status : Double)
  | closed
  | clientClosed (client : String) (received : List UInt8)
  | late (step : Nat) (outcome : Outcome Reply Failure)
  deriving Repr

/-- The client whose connection has this server end. -/
def clientOf (w : World) (s : Nat) : String :=
  ((w.clients.toList.find? (·.far == s)).map (·.name)).getD ""

/-- A value as a script sees it. -/
def replyOf (w : World) : Value → Reply
  | .port n => .port n
  | .socket s => .socketOf (clientOf w s)
  | _ => .nothing

/-- An outcome as a script sees it. -/
def outcomeOf (w : World) : Outcome Value Failure → Outcome Reply Failure
  | .fulfilled v => .fulfilled (replyOf w v)
  | .rejected f => .rejected f

/-- A notice as a script sees it. -/
def eventOf (w : World) : Notice → Event
  | .log level message args => .log level message args
  | .listening port => .listening port
  | .acceptError f => .acceptError f
  | .connectionError f => .connectionError f
  | .response path status => .response path status
  | .closed => .closed
  | .clientClosed c b => .clientClosed c b
  | .late step o => .late step (outcomeOf w o)

/-- The number of the newest client of this name. -/
def clientNamed (w : World) (name : String) : Option Nat :=
  let found := (w.clients.toList.zipIdx).filter (·.1.name == name)
  found.getLast?.map (·.2)

/-- The failure for a client name that was never connected. -/
def unknownClient (name : String) : Failure :=
  Failure.plain s!"No client named {name}"

/-- Connect a client and watch for its connection to close. -/
def openClient (name : String) : Sim (Except Failure Nat) := do
  match ← connect name with
  | .error f => return .error f
  | .ok c =>
    let some k := (← get).clients[c]? | return .ok c
    onSettled k.reply (.replyClosed c)
    return .ok c

/-- Run a client operation on a named client. -/
def withClient (name : String) (act : Client → Sim Answer) : Sim Answer := do
  let w ← get
  match (clientNamed w name).bind (w.clients[·]?) with
  | some k => act k
  | none => return .failed (unknownClient name)

/-- Run a client operation; the answer is known at once. -/
def ClientOp.run : ClientOp → Sim Answer
  | .connect name => do
    match ← openClient name with
    | .error f => return .failed f
    | .ok _ => return .none
  | .request name data => do
    match ← openClient name with
    | .error f => return .failed f
    | .ok c =>
      let some k := (← get).clients[c]? | return .none
      Machine.send k.near data
      return .none
  | .send name data => withClient name fun k => do Machine.send k.near data; return .none
  | .finish name => withClient name fun k => do Machine.finishWrite k.near; return .none
  | .close name => withClient name fun k => do Machine.close k.near; return .none
  | .failServer name message => withClient name fun k => do
      Machine.fail k.far (Failure.plain message)
      return .none
  | .injectAcceptError message => do
    match ← injectError message with
    | .error f => return .failed f
    | .ok _ => return .none
  | .injectForeign => do
    match ← Machine.injectForeign with
    | .error f => return .failed f
    | .ok _ => return .none
  | .clientState name => withClient name fun k => do
      return .closed (← endpoint k.near).closed

/-- Watch the cell of the operation of step `k`. -/
def watch (k : Nat) (acceptId : Option String) (c : CellId) : Sim Answer := do
  onSettled c (.opSettled k acceptId)
  return .pending

/-- The answer of a step once it has settled: a watched operation answers
its outcome if it settled during the step. -/
def finalAnswer (w : World) : Answer → Answer
  | .pending => match w.stepOutcome with
    | some o => .settled (outcomeOf w o)
    | none => .pending
  | a => a

/-- Begin step `k`: clear what the last step recorded. -/
def beginStep (k : Nat) : Sim Unit :=
  modify fun w => { w with step := k, stepOutcome := none, notices := #[] }

end Session
end HttpStub
