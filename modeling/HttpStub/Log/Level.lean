/-!
# Log levels

Four levels in rising order of urgency: debug, info, warn and error.  A
filter passes a call when the call's level is at least the filter's floor.
-/

namespace HttpStub

/-- How urgent a log line is. -/
inductive LogLevel where
  | debug
  | info
  | warn
  | error
  deriving DecidableEq, Repr

namespace LogLevel

/-- The name of a level. -/
def name : LogLevel → String
  | .debug => "debug"
  | .info => "info"
  | .warn => "warn"
  | .error => "error"

/-- The level with this exact name. -/
def ofName? : String → Option LogLevel
  | "debug" => some .debug
  | "info" => some .info
  | "warn" => some .warn
  | "error" => some .error
  | _ => none

/-- The rank of a level: debug is lowest. -/
def rank : LogLevel → Nat
  | .debug => 0
  | .info => 1
  | .warn => 2
  | .error => 3

end LogLevel
end HttpStub
