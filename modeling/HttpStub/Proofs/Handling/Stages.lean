import HttpStub.Proofs.Handling.Setting

/-!
# The stages of a handler

A handler begun on a connection makes its cells in a row and then moves
through fixed stages: it waits for the raw read, reads the request, serves
it by a plan, writes the response, reports it, and closes.  Each stage but
the first and the last is one queued job, which settles the cell the next
stage waits on.

`Handler.At H st past w` says that the world `w` is that of handler `H` at
stage `st`, after the jobs `past` ran: its cells are as the stage expects,
the queue holds the stage's job behind at most one write or close of the
handler, and besides that only timeouts of its read; the notices are those
recorded before the handler began followed by those the stage has
recorded; and the writes and closes queued so far, run or not, are those
of the stage.  `Frame` is what holds at every stage about the rest of the
world: the server answers with the handler's settings, and nothing but the
handler waits on a cell or could settle one of its cells.
-/

namespace HttpStub

namespace Async

/-- How a raw read settles: with the bytes read, or with a read failure. -/
def Outcome.IsRead : Outcome Machine.Value Failure → Prop
  | .fulfilled v => ∃ b, v = .bytes b
  | .rejected f => f.kind = .read

/-- How reading a request settles: with the request, if the bytes hold one,
or with a read failure. -/
def Outcome.IsRequest : Outcome Machine.Value Failure → Prop
  | .fulfilled v => ∃ r, v = .request r
  | .rejected f => f.kind = .read

/-- How writing a response settles after its send. -/
def Outcome.ofSend : Outcome Machine.Value Failure → Outcome Machine.Value Failure
  | .fulfilled _ => .fulfilled .unit
  | .rejected err => .rejected (Failure.writeFailed err)

end Async

namespace Machine

open Async Loop

/-- A handler begun on connection `socket`: the cells it makes are numbered
from `base`, the read it starts is reader `reader`, it answers with `config`
and `table`, a listener of its responses throws an error with message
`fault` if anything, and `before` was recorded when it began. -/
structure Handler where
  socket : Nat
  base : Nat
  reader : Nat
  config : ServerConfig
  table : RouteTable
  fault : Option String
  before : List Notice

/-- How handling ends once the response was sent, or failed to be, when a
listener of the response throws an error with message `fault` if anything. -/
def Handled.ofSend (fault : Option String) (path : String) (r : Response) (summary : String) :
    Outcome Value Failure → Handled
  | .fulfilled _ => fault.elim (.answered path r summary) fun m => .faulted path r summary (Failure.plain m)
  | .rejected err => .unanswered path r (Failure.writeFailed err)

namespace Handled

/-- The notices recorded before serving settles: those of a response that
went out and of a dismissal; failures are reported after. -/
def early (quiet : Bool) : Handled → List Notice
  | unread _ | unanswered .. => []
  | faulted path r summary _ => told quiet path r summary
  | r => r.notices quiet

/-- The cells made to respond, when a response was written. -/
def extra : Handled → List (Expect Reaction Value Failure)
  | answered .. | faulted .. | unanswered .. => [.spent, .spent, .spent]
  | unread _ | dismissed => []

/-- A failure reported as a connection error is one of reading or of
writing, and one a listener of the response threw is neither. -/
def Reportable : Handled → Prop
  | unread f => f.kind = .read
  | unanswered _ _ f => f.kind = .write
  | faulted _ _ _ f => f.isTransfer = false
  | dismissed | answered .. => True

theorem ofSend_reportable (fault : Option String) (path : String) (r : Response) (summary : String)
    (sent : Outcome Value Failure) : (Handled.ofSend fault path r summary sent).Reportable := by
  cases sent with
  | rejected err => rfl
  | fulfilled v =>
    cases fault with
    | none => trivial
    | some m => rfl

end Handled

namespace Handler

/-- How far a handler has got. -/
inductive Stage where
  /-- The raw read has not settled. -/
  | reading
  /-- The raw read settled; reading the request resumes next. -/
  | read (o : Outcome Value Failure)
  /-- Reading the request settled; serving resumes next. -/
  | parsed (o : Outcome Value Failure)
  /-- The response was sent, or failed to be; writing resumes next. -/
  | sending (path : String) (r : Response) (summary : String) (sent : Outcome Value Failure)
  /-- Writing settled; responding resumes next. -/
  | written (path : String) (r : Response) (summary : String) (sent : Outcome Value Failure)
  /-- Responding settled; serving resumes next. -/
  | responded (path : String) (r : Response) (summary : String) (sent : Outcome Value Failure)
  /-- Serving settled; the handler resumes next, to report and close. -/
  | served (result : Handled)
  /-- The handler settled. -/
  | done (result : Handled)

/-- What the outcomes of a stage can be. -/
def Stage.Valid : Stage → Prop
  | .reading => True
  | .read o => o.IsRead
  | .parsed o => o.IsRequest
  | .sending .. | .written .. | .responded .. => True
  | .served result | .done result => result.Reportable

/-- The notices a stage has recorded. -/
def Stage.added (quiet : Bool) : Stage → List Notice
  | .reading | .read _ | .parsed _ | .sending .. | .written .. => []
  | .responded path r summary (.fulfilled _) => Handled.told quiet path r summary
  | .responded _ _ _ (.rejected _) => []
  | .served result => result.early quiet
  | .done result => result.notices quiet

variable (H : Handler)

/-- The reaction by which the handler resumes after serving. -/
def finishing : Reaction := .handleServed H.socket H.base

/-- The reaction by which serving resumes after the read of the request. -/
def serving : Reaction := .serveRead H.socket (H.base + 1)

/-- The reaction by which reading the request resumes after the raw read. -/
def reading : Reaction := .requestRead (H.base + 2)

/-- The reaction by which serving resumes after responding. -/
def closing : Reaction := .serveResponded (H.base + 1)

/-- The reaction by which responding resumes after writing. -/
def reporting (path : String) (r : Response) (summary : String) : Reaction :=
  .respondWritten H.socket path r.status summary (H.base + 4)

/-- The reaction by which writing resumes after the send. -/
def writing : Reaction := .writeSent (H.base + 5)

/-- What the handler expects of its cells at a stage, from its own cell on:
its own, serving's, the request's, the raw read's, and, once responding,
responding's, writing's and the send's. -/
def cells : Stage → List (Expect Reaction Value Failure)
  | .reading => [.waits [], .waits [H.finishing], .waits [H.serving], .waits [H.reading]]
  | .read o => [.waits [], .waits [H.finishing], .waits [H.serving], .holds o]
  | .parsed o => [.waits [], .waits [H.finishing], .holds o, .spent]
  | .sending path r summary sent =>
    [.waits [], .waits [H.finishing], .spent, .spent, .waits [H.closing],
      .waits [H.reporting path r summary], .holds sent]
  | .written _ _ _ sent =>
    [.waits [], .waits [H.finishing], .spent, .spent, .waits [H.closing], .holds sent.ofSend, .spent]
  | .responded path r summary sent =>
    [.waits [], .waits [H.finishing], .spent, .spent, .holds (Handled.ofSend H.fault path r summary sent).outcome,
      .spent, .spent]
  | .served result => [.waits [], .holds result.outcome, .spent, .spent] ++ result.extra
  | .done result => [.holds (.fulfilled .unit), .spent, .spent, .spent] ++ result.extra

/-- The job queued for a stage: the next stage of the handler. -/
def next : Stage → List (Job Reaction Value Failure)
  | .reading | .done _ => []
  | .read o => [.resume H.reading o]
  | .parsed o => [.resume H.serving o]
  | .sending _ _ _ sent => [.resume H.writing sent]
  | .written path r summary sent => [.resume (H.reporting path r summary) sent.ofSend]
  | .responded path r summary sent => [.resume H.closing (Handled.ofSend H.fault path r summary sent).outcome]
  | .served result => [.resume H.finishing result.outcome]

/-- What may be queued ahead of a stage's job: the write of a response sent
and not yet delivered, or the close of a handler done and not yet shut. -/
def Lead : Stage → List (Job Reaction Value Failure) → Prop
  | .sending _ r _ sent, js =>
    js = [] ∨ (∃ e, js = [.task (.deliver e r.serialize)]) ∧ ∃ v, sent = .fulfilled v
  | .done _, js => js = [] ∨ js = [.task (.shut H.socket)]
  | _, js => js = []

/-- The timeout of the handler's read: once the read settled, a stray. -/
def stray : Job Reaction Value Failure → Bool
  | .task (.readTimedOut r) => r == H.reader
  | _ => false

@[simp] theorem stray_readTimedOut : H.stray (.task (.readTimedOut H.reader)) = true := by
  simp [stray]

@[simp] theorem stray_resume (k : Reaction) (o : Outcome Value Failure) :
    H.stray (.resume k o) = false := rfl

/-- The handler's read, if there is one, has settled. -/
def ReadDone (w : World) : Prop :=
  ∀ rd, w.readers[H.reader]? = some rd → rd.cell = H.base + 3 ∧ rd.settled = true

/-- The handler's read, as the stage has it: waiting, until the raw read
settles. -/
def ReaderAt (w : World) : Stage → Prop
  | .reading => ∃ rd, w.readers[H.reader]? = some rd ∧ rd.cell = H.base + 3 ∧ rd.settled = false
  | _ => H.ReadDone w

/-- The writes and closes a stage has queued. -/
def wires : Stage → List Wire
  | .reading | .read _ | .parsed _ => []
  | .sending path r summary sent | .written path r summary sent | .responded path r summary sent =>
    (Handled.ofSend H.fault path r summary sent).sent.map .write
  | .served result => result.sent.map .write
  | .done result => result.wire H.socket

/-- What holds of the rest of the world while the handler runs. -/
structure Frame (w : World) : Prop where
  server : ∃ srv, w.server = some srv ∧ srv.config = H.config ∧ srv.table = H.table ∧
    srv.responseFault = H.fault
  quiet : ∀ c < H.base, ∀ ks, w.loop.cells[c]? = some (.pending ks) → ks = []
  readers : ∀ i rd, w.readers[i]? = some rd → i ≠ H.reader → rd.cell < H.base
  clients : ∀ (i : Nat) (k : Client), w.clients[i]? = some k → k.reply < H.base
  timers : ∀ t ∈ w.loop.timers, t.task = .readTimedOut H.reader

/-- The world of the handler at stage `st`, after the jobs `past` ran. -/
structure At (st : Stage) (past : List (Job Reaction Value Failure)) (w : World) : Prop where
  frame : H.Frame w
  cells : w.loop.Matches H.base (H.cells st)
  jobs : ∃ lead, H.Lead st lead ∧ w.loop.jobs.filter (fun j => !H.stray j) = lead ++ H.next st
  reader : H.ReaderAt w st
  valid : st.Valid
  notices : w.notices.toList = H.before ++ st.added H.config.quiet
  wires : (past ++ w.loop.jobs).filterMap Job.wire = H.wires st

/-- The world of the handler at some stage. -/
def Runs (past : List (Job Reaction Value Failure)) (w : World) : Prop :=
  ∃ st, H.At st past w

end Handler

end Machine
end HttpStub
