import HttpStub.Failure

/-!
# Endpoints of in-memory connections

An in-memory connection is a pair of endpoints, each the other's peer.
Bytes written on one endpoint arrive at its peer as a chunk, one job
later; the end of writing (a FIN) arrives the same way.  An endpoint that
has no data listener yet keeps arriving chunks unread and hands them all to
the first data listener when it registers.

Closing is a job too, so bytes already on their way arrive first.  Closing
an endpoint closes its peer at once, and a failure closes the endpoint after
telling its error listeners.  Once closed, an endpoint takes no more data
and no more end.

Listeners are kept as data: each `Hook` names the party that listens.
-/

namespace HttpStub

/-- A party that listens on an endpoint. -/
inductive Hook where
  /-- A single read of a request, by number. -/
  | reader (id : Nat)
  /-- The server's set of live connections. -/
  | tracker
  /-- The client that collects the reply, by number. -/
  | client (id : Nat)
  /-- A scripted reader of an accepted endpoint, by number. -/
  | tap (id : Nat)
  deriving DecidableEq, Repr

/-- What happens on an endpoint, as its listeners hear it. -/
inductive Signal where
  | data (chunk : List UInt8)
  | finished
  | closed
  | failed (err : Failure)
  deriving Repr

/-- The state of one endpoint. -/
structure Endpoint where
  peer : Nat := 0
  closed : Bool := false
  /-- The peer finished writing. -/
  ended : Bool := false
  /-- This endpoint finished writing. -/
  writeEnded : Bool := false
  lastError : Option Failure := none
  unread : List (List UInt8) := []
  onData : List Hook := []
  onEnd : List Hook := []
  onClose : List Hook := []
  onError : List Hook := []
  deriving Repr

/-- The address an in-memory endpoint reports for its peer. -/
def Endpoint.remoteAddress : String := "in-memory"

end HttpStub
