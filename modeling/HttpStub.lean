import HttpStub.Async.Loop
import HttpStub.Cli.Args
import HttpStub.Config.Basic
import HttpStub.Config.Env
import HttpStub.Emitter
import HttpStub.Failure
import HttpStub.Http.Plan
import HttpStub.Http.Request
import HttpStub.Http.Response
import HttpStub.Http.Route
import HttpStub.Log.Level
import HttpStub.Log.Logger
import HttpStub.Log.Store
import HttpStub.Machine.Acceptor
import HttpStub.Machine.Basic
import HttpStub.Machine.Handler
import HttpStub.Machine.Run
import HttpStub.Machine.Server
import HttpStub.Machine.Socket
import HttpStub.Main
import HttpStub.Net.Acceptor
import HttpStub.Net.Endpoint
import HttpStub.Net.Listener
import HttpStub.Pool
import HttpStub.Session.Acceptor
import HttpStub.Session.Client
import HttpStub.Session.Emitter
import HttpStub.Session.LogStore
import HttpStub.Session.Loopback
import HttpStub.Session.Pool
import HttpStub.Session.Server
import HttpStub.Text.Blank
import HttpStub.Text.Decimal
import HttpStub.Text.Hex
import HttpStub.Text.Shown
import HttpStub.Text.Utf8
import HttpStub.Proofs.Pool
import HttpStub.Proofs.Acceptor
import HttpStub.Proofs.Loop
import HttpStub.Proofs.PoolSession.Shape
import HttpStub.Proofs.PoolSession.Books
import HttpStub.Proofs.PoolSession.Reports
import HttpStub.Proofs.Machine.Moves
import HttpStub.Proofs.Machine.Frame
import HttpStub.Proofs.Machine.Life
import HttpStub.Proofs.Machine.Lifecycle
import HttpStub.Proofs.Utf8
import HttpStub.Proofs.RequestLine
import HttpStub.Proofs.Framing
import HttpStub.Proofs.Machine.Custody
import HttpStub.Proofs.Machine.Hoare
import HttpStub.Proofs.Machine.Records
import HttpStub.Proofs.Settings
import HttpStub.Proofs.Handling.Report
import HttpStub.Proofs.Custody.Handlers
import HttpStub.Proofs.Custody.Server
import HttpStub.Proofs.Overriding
import HttpStub.Proofs.Numerals
import HttpStub.Proofs.Reading
import HttpStub.Proofs.Machine.AcceptFailures
import HttpStub.Proofs.FirstLine
import HttpStub.Proofs.Emitter.Registrations
import HttpStub.Proofs.Emitter.Emit
import HttpStub.Proofs.Logging.Chain
import HttpStub.Proofs.Machine.Binding
import HttpStub.Proofs.Logging.Buffer
import HttpStub.Proofs.Custody.Jobs
import HttpStub.Proofs.Custody.Operations
import HttpStub.Proofs.Custody.Script
import HttpStub.Proofs.Routing
import HttpStub.Proofs.ByteSearch
import HttpStub.Proofs.Emitter.Removal
import HttpStub.Proofs.Dispatch.Concurrent
