import HttpStub.Async.Loop
import HttpStub.Text.Double

/-!
# In-memory listeners

A listener is bound on request.  Port 0 (either zero) asks for a fresh port, which the
network hands out counting up from 41000; any other port is taken as
given.  Binding reports back one job later, with success or with the
network's bind error.  While listening, the listener passes each incoming
connection to the acceptor that owns it.  Closing stops the listening at
once and reports back one job later.

A listener also keeps the state of the bind that created it: whether that
bind has settled, and the cell that reports its outcome.
-/

namespace HttpStub

/-- What a bind asks for. -/
structure BindRequest where
  port : Double
  host : Option String := none
  backlog : Option Double := none
  deriving DecidableEq, Repr

/-- The state of one listener. -/
structure Listener where
  owner : Nat
  request : BindRequest
  bindCell : Async.CellId
  listening : Bool := false
  port : Option Double := none
  /-- Whether the bind that created this listener has settled. -/
  settled : Bool := false
  deriving Repr

/-- The port a listener reports while it listens. -/
def Listener.address (l : Listener) : Option Double :=
  if l.listening then l.port else none

end HttpStub
