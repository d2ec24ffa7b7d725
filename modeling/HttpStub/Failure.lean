import HttpStub.Text.Double

/-!
# Failures

A failure has a kind, a message, an optional code and an optional cause,
which is itself a failure.  Besides the plain error, the range error of a
bad argument and the type error of a value used as what it is not, the
kinds are the server's own: setup (binding the
listener), accept, a closed acceptor, read and write.  Each server kind has
its code, and a read failure says whether the read broke or timed out.  A
plain error may carry the name of a system error, such as `EADDRINUSE`.

The constructors below fix every message the server writes, so the wording
lives in one place.
-/

namespace HttpStub

/-- What went wrong, as the name a failure reports. -/
inductive FailureKind where
  | error
  | range
  | type
  | setup
  | accept
  | acceptorClosed
  | read
  | write
  deriving DecidableEq, Repr

/-- The name under which a failure of this kind is reported. -/
def FailureKind.name : FailureKind → String
  | .error => "Error"
  | .range => "RangeError"
  | .type => "TypeError"
  | .setup => "SetupError"
  | .accept => "AcceptError"
  | .acceptorClosed => "AcceptorClosedError"
  | .read => "ReadError"
  | .write => "WriteError"

/-- The code that a failure carries. -/
inductive FailureCode where
  | bindFailed
  | acceptFailed
  | acceptorClosed
  | readFailed
  | readTimeout
  | writeFailed
  | system (name : String)
  deriving DecidableEq, Repr

/-- The text of a code. -/
def FailureCode.name : FailureCode → String
  | .bindFailed => "BIND_FAILED"
  | .acceptFailed => "ACCEPT_FAILED"
  | .acceptorClosed => "ACCEPTOR_CLOSED"
  | .readFailed => "READ_FAILED"
  | .readTimeout => "READ_TIMEOUT"
  | .writeFailed => "WRITE_FAILED"
  | .system name => name

/-- A failure with its kind, message, code and cause. -/
inductive Failure where
  | mk (kind : FailureKind) (message : String) (code : Option FailureCode)
      (cause : Option Failure)
  deriving Repr

namespace Failure

/-- The kind of a failure. -/
def kind : Failure → FailureKind
  | mk k _ _ _ => k

/-- The message of a failure. -/
def message : Failure → String
  | mk _ m _ _ => m

/-- The code of a failure, if it has one. -/
def code : Failure → Option FailureCode
  | mk _ _ c _ => c

/-- The failure that caused this one, if any. -/
def cause : Failure → Option Failure
  | mk _ _ _ c => c

/-- A plain error with a message. -/
def plain (message : String) : Failure :=
  mk .error message none none

/-- A plain error that names a system error. -/
def system (name message : String) : Failure :=
  mk .error message (some (.system name)) none

/-- A bad argument. -/
def range (message : String) : Failure :=
  mk .range message none none

/-- A value used as what it is not. -/
def type (message : String) : Failure :=
  mk .type message none none

/-- The listener could not be set up. -/
def setup (message : String) (cause : Option Failure) : Failure :=
  mk .setup message (some .bindFailed) cause

/-- A connection could not be accepted. -/
def accept (message : String) (cause : Option Failure) : Failure :=
  mk .accept message (some .acceptFailed) cause

/-- The acceptor was closed before a connection came. -/
def acceptorClosed : Failure :=
  mk .acceptorClosed "Acceptor is closed" (some .acceptorClosed) none

/-- The socket reported an error before the request arrived. -/
def readFailed (cause : Failure) : Failure :=
  mk .read s!"Read failed: {cause.message}" (some .readFailed) (some cause)

/-- Nothing arrived within the read timeout. -/
def readTimeout (ms : Double) : Failure :=
  mk .read s!"No data received within {ms.render}ms" (some .readTimeout) none

/-- The response could not be written. -/
def writeFailed (cause : Failure) : Failure :=
  mk .write s!"Write failed: {cause.message}" (some .writeFailed) (some cause)

/-- Whether a failure is one of the two that a connection reports: a read
or a write failure. -/
def isTransfer (f : Failure) : Bool :=
  match f.kind with
  | .read | .write => true
  | _ => false

end Failure
end HttpStub
