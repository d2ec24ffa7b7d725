import HttpStub.Cli.Args
import HttpStub.Http.Plan
import HttpStub.Log.Logger

/-!
# Command line

Reads the settings from the environment and the command line.  Help and
version are printed; a bad argument is reported on standard error, followed
by the help, and exits with status 1.  Otherwise the program answers one
connection carried on standard input and output, in the manner of a
service started per connection: it reads one request, writes the planned
response, and logs through the configured level filter on standard error.
-/

namespace HttpStub

/-- The environment variables the configuration reads. -/
def configVariables : List String :=
  ["PORT", "HOST", "DISPATCH", "MAX_CONCURRENCY", "MAX_PENDING", "ROUTES", "EMPTY_REQUEST",
   "LOG_LEVEL"]

/-- Write a log line if the configured level lets it through. -/
def logLine (config : ServerConfig) (level : LogLevel) (message : String) : IO Unit := do
  if let some line := LogLayer.chain [.filtered config.level?] level message then
    IO.eprintln line

/-- Answer one connection on standard input and output. -/
def serveOnce (config : ServerConfig) : IO Unit := do
  let stdin ← IO.getStdin
  let chunk ← stdin.read 65536
  let raw := Bytes.upTo config.readBufferSize chunk.toList
  match Plan.ofRequest config.emptyPolicy config.routeTable (Request.parse? raw) with
  | .dismiss => logLine config .debug "Empty request from stdin, closing"
  | .respond _ response summary =>
    let stdout ← IO.getStdout
    stdout.write (ByteArray.mk response.serialize.toArray)
    stdout.flush
    if !config.quiet then
      logLine config .info s!"{summary} {response.status.render} - stdin"

end HttpStub

open HttpStub in
/-- Run the command line. -/
def main (args : List String) : IO UInt32 := do
  match CliOptions.parse args with
  | .help =>
    IO.println helpText
    return 0
  | .version =>
    IO.println versionText
    return 0
  | .error message =>
    IO.eprintln message
    IO.println helpText
    return 1
  | .run options =>
    let mut vars : List (String × String) := []
    for name in configVariables do
      if let some v ← IO.getEnv name then
        vars := vars ++ [(name, v)]
    let env : Env := fun k => vars.lookup k
    serveOnce (options.applyTo (ServerConfig.ofEnv env))
    return 0
