import HttpStub.Log.Level
import HttpStub.Http.Route

/-!
# Server configuration

The settings of a server: where it listens, how it hands connections to
the handler, how much it reads, what it does with an empty request, which
route table it serves, and how much it logs.  The defaults listen on
`0.0.0.0:8080`, handle one connection at a time, read up to 1024 bytes with
no timeout, answer an empty request like any unknown path, and serve the
plain table.

Settings are held as they are given, choices by name and numbers as
doubles, because settings laid over others are taken without checks.  What
the server makes of a setting is a reading of it: an unknown dispatch name
dispatches on the worker pool, an unknown policy answers empty requests, and
an unknown table name serves the plain table.  The environment and the
command line only ever give known names and numbers in range.
-/

namespace HttpStub

/-- How accepted connections reach the handler: one at a time in arrival
order, or on a bounded pool of workers. -/
inductive DispatchMode where
  | sequential
  | concurrent
  deriving DecidableEq, Repr

namespace DispatchMode

/-- The name of a dispatch mode. -/
def name : DispatchMode → String
  | .sequential => "sequential"
  | .concurrent => "concurrent"

/-- The dispatch mode of this exact name. -/
def ofName? : String → Option DispatchMode
  | "sequential" => some .sequential
  | "concurrent" => some .concurrent
  | _ => none

end DispatchMode

/-- What to do when the first read of a connection brings no bytes: answer
it as a request for the empty path, or close the connection silently. -/
inductive EmptyRequestPolicy where
  | notFound
  | close
  deriving DecidableEq, Repr

namespace EmptyRequestPolicy

/-- The name of a policy. -/
def name : EmptyRequestPolicy → String
  | .notFound => "not-found"
  | .close => "close"

/-- The policy of this exact name. -/
def ofName? : String → Option EmptyRequestPolicy
  | "not-found" => some .notFound
  | "close" => some .close
  | _ => none

end EmptyRequestPolicy

/-- All settings of a server, as they are given.  A choice is kept by its
name and a number as the double given, so a setting outside the known
names or ranges is carried along unchanged; the readings below say what the
server makes of each. -/
structure ServerConfig where
  port : Double
  host : String
  backlog : Double
  dispatch : String
  maxConcurrency : Double
  maxPendingConnections : Double
  readBufferSize : Double
  readTimeoutMs : Double
  emptyRequest : String
  routes : String
  quiet : Bool
  logLevel : String
  deriving DecidableEq, Repr

namespace ServerConfig

/-- The port used when none is configured. -/
def defaultPort : Double := 8080

/-- The default settings. -/
def default : ServerConfig where
  port := defaultPort
  host := "0.0.0.0"
  backlog := 16
  dispatch := DispatchMode.sequential.name
  maxConcurrency := 64
  maxPendingConnections := 1024
  readBufferSize := 1024
  readTimeoutMs := 0
  emptyRequest := EmptyRequestPolicy.notFound.name
  routes := RouteTableName.plain.name
  quiet := false
  logLevel := LogLevel.info.name

/-- How the server dispatches: only the name `sequential` runs connections
one at a time; any other name runs them on the worker pool. -/
def dispatchMode (c : ServerConfig) : DispatchMode :=
  if c.dispatch = DispatchMode.sequential.name then .sequential else .concurrent

/-- What the handler does with an empty read: only the name `close` closes
the connection; any other name answers it like an unknown path. -/
def emptyPolicy (c : ServerConfig) : EmptyRequestPolicy :=
  if c.emptyRequest = EmptyRequestPolicy.close.name then .close else .notFound

/-- The built-in table the settings name; a name of no table gives the plain
table, the default of a router built without one. -/
def routeTable (c : ServerConfig) : RouteTable :=
  match RouteTableName.ofName? c.routes with
  | some n => RouteTable.named n
  | none => RouteTable.plain

/-- The level the settings name, if they name one. -/
def level? (c : ServerConfig) : Option LogLevel :=
  LogLevel.ofName? c.logLevel

end ServerConfig

/-- Some settings, each present or not, laid over others as given. -/
structure ConfigPatch where
  port : Option Double := none
  host : Option String := none
  backlog : Option Double := none
  dispatch : Option String := none
  maxConcurrency : Option Double := none
  maxPendingConnections : Option Double := none
  readBufferSize : Option Double := none
  readTimeoutMs : Option Double := none
  emptyRequest : Option String := none
  routes : Option String := none
  quiet : Option Bool := none
  logLevel : Option String := none

namespace ConfigPatch

/-- Overlay the present settings on a configuration: a present setting
replaces the base's, whatever it says. -/
def apply (p : ConfigPatch) (base : ServerConfig) : ServerConfig where
  port := p.port.getD base.port
  host := p.host.getD base.host
  backlog := p.backlog.getD base.backlog
  dispatch := p.dispatch.getD base.dispatch
  maxConcurrency := p.maxConcurrency.getD base.maxConcurrency
  maxPendingConnections := p.maxPendingConnections.getD base.maxPendingConnections
  readBufferSize := p.readBufferSize.getD base.readBufferSize
  readTimeoutMs := p.readTimeoutMs.getD base.readTimeoutMs
  emptyRequest := p.emptyRequest.getD base.emptyRequest
  routes := p.routes.getD base.routes
  quiet := p.quiet.getD base.quiet
  logLevel := p.logLevel.getD base.logLevel

end ConfigPatch
end HttpStub
