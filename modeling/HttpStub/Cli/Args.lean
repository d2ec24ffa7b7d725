import HttpStub.Config.Env

/-!
# Command-line arguments

The command line sets a few settings over those of the environment:
`--port`/`-p`, `--host`/`-H`, `--dispatch`/`-d`, `--max-concurrency`,
`--routes` and `--quiet`/`-q`, and it can ask for `--help`/`-h` or
`--version`/`-v`.  Arguments are read left to right.  A flag that takes a
value takes the next argument whatever it looks like.  The first help or
version flag, or the first bad argument, ends the reading; a later setting
of the same flag overrides an earlier one.
-/

namespace HttpStub

/-- Settings given on the command line, each present or not, held as
values of a configuration: reading a command line fills them with checked
values only, but laying options over a configuration takes any. -/
structure CliOptions where
  port : Option Double := none
  host : Option String := none
  dispatch : Option String := none
  maxConcurrency : Option Double := none
  routes : Option String := none
  quiet : Option Bool := none
  deriving DecidableEq, Repr

/-- What the command line asks for. -/
inductive ParseResult where
  | run (options : CliOptions)
  | help
  | version
  | error (message : String)
  deriving DecidableEq, Repr

namespace CliOptions

/-- What reading one flag does: set options, taking the next argument as
its value or not, or end the reading with a result. -/
inductive Effect where
  | set (opts : CliOptions) (takesValue : Bool)
  | stop (result : ParseResult)
  deriving DecidableEq, Repr

/-- Read one flag, given the argument after it, if any. -/
def readFlag (opts : CliOptions) (arg : String) (value : Option String) : Effect :=
  let shown := value.getD ""
  if arg == "--port" || arg == "-p" then
    match parseIntInRange value 0 65535 with
    | some p => .set { opts with port := some p } true
    | none => .stop (.error s!"Invalid port number: {shown}")
  else if arg == "--host" || arg == "-H" then
    match value with
    | some h =>
      if h.isEmpty then .stop (.error "--host needs a value")
      else .set { opts with host := some h } true
    | none => .stop (.error "--host needs a value")
  else if arg == "--dispatch" || arg == "-d" then
    match value.bind DispatchMode.ofName? with
    | some d => .set { opts with dispatch := some d.name } true
    | none => .stop (.error s!"Invalid dispatch mode: {shown} (expected sequential or concurrent)")
  else if arg == "--max-concurrency" then
    match parseIntInRange value 1 65535 with
    | some n => .set { opts with maxConcurrency := some n } true
    | none => .stop (.error s!"Invalid concurrency: {shown}")
  else if arg == "--routes" then
    match value.bind RouteTableName.ofName? with
    | some t => .set { opts with routes := some t.name } true
    | none => .stop (.error s!"Unknown route table: {shown} (expected plain or json)")
  else if arg == "--quiet" || arg == "-q" then .set { opts with quiet := some true } false
  else if arg == "--version" || arg == "-v" then .stop .version
  else if arg == "--help" || arg == "-h" then .stop .help
  else .stop (.error s!"Unknown option: {arg}")

/-- Read arguments after the options gathered so far. -/
def parseFrom (opts : CliOptions) : List String → ParseResult
  | [] => .run opts
  | arg :: rest =>
    match readFlag opts arg rest.head? with
    | .stop result => result
    | .set opts true => parseFrom opts rest.tail
    | .set opts false => parseFrom opts rest
termination_by args => args.length
decreasing_by all_goals (simp only [List.length_cons, List.length_tail]; omega)

/-- Read a command line. -/
def parse (args : List String) : ParseResult :=
  parseFrom {} args

/-- Lay the options over a configuration: a present option wins. -/
def applyTo (o : CliOptions) (c : ServerConfig) : ServerConfig :=
  { c with
    port := o.port.getD c.port
    host := o.host.getD c.host
    dispatch := o.dispatch.getD c.dispatch
    maxConcurrency := o.maxConcurrency.getD c.maxConcurrency
    routes := o.routes.getD c.routes
    quiet := o.quiet.getD c.quiet }

end CliOptions

/-- The usage text. -/
def helpText : String :=
  "
cannedhttp - answer HTTP probes with canned responses

Usage: cannedhttp [options]

Options:
  --port, -p <port>          Port to listen on (default: $PORT or 8080)
  --host, -H <host>          Host to bind (default: $HOST or 0.0.0.0)
  --dispatch, -d <mode>      sequential or concurrent (default: $DISPATCH or sequential)
  --max-concurrency <n>      Connections handled at once in concurrent mode (default: 64)
  --routes <table>           plain or json (default: $ROUTES or plain)
  --quiet, -q                Suppress request logging
  --version, -v              Show version
  --help, -h                 Show this help
"

/-- The version the command line reports. -/
def versionText : String := "0.1.0"

end HttpStub
