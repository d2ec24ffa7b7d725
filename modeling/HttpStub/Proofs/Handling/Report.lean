import HttpStub.Proofs.Handling.Start

/-!
# Handling reports once and closes once

A handler begun in a calm world stays at some stage whatever happens
around it: every happening keeps it at a stage, and so does every run of
them.  What a stage has recorded and queued is a beginning of what one way
of ending records and queues, and once the handler's own cell settles it is
all of it.

Main statement, `handle_reports_once`: for every connection state and every
run of happenings after `handle` began, whatever a listener of the response
throws, there is one way the handling ends
(`Handled`), whose failure reported as a connection error, if any, is one of
reading or of writing, such that

* the notices recorded so far are a beginning of that ending's notices:
  at most one report, of the response or of the failure, the line of a
  response unless the server is quiet, and after the report of a response
  the error a listener of it threw;
* the writes and closes queued so far are a beginning of that ending's:
  at most one write, of the response, then one close of the connection;
* the handler's own cell never settles with a failure, and once it settles
  the notices and the writes and closes are all of that ending's;
* when nothing is left queued, the handler has settled or its read has
  not.
-/

namespace HttpStub
namespace Machine

open Async Loop

namespace Handler

variable {H : Handler}

/-! ## Every run keeps the handler at a stage -/

/-- One happening keeps the handler at some stage, after the job it ran. -/
theorem Happening.runs {past : List (Job Reaction Value Failure)} {w : World} (e : Happening)
    (runs : H.Runs past w) : H.Runs (past ++ e.ran w) (e.apply w) := by
  cases e with
  | job => exact job_runs runs
  | fire limit =>
    obtain ⟨st, now⟩ := runs
    simp only [Happening.ran, List.append_nil, Happening.apply]
    split
    · next l fired => exact ⟨st, now.fire fired⟩
    · exact ⟨st, now⟩
  | data e chunk =>
    simp only [Happening.ran, List.append_nil]
    exact arrive_runs e chunk w runs
  | finished e =>
    simp only [Happening.ran, List.append_nil]
    exact arriveEnd_runs e w runs
  | closed e =>
    simp only [Happening.ran, List.append_nil]
    exact closeNow_runs e w runs
  | failed e err =>
    simp only [Happening.ran, List.append_nil]
    exact fail_runs e err w runs

/-- A run of happenings keeps the handler at some stage; the jobs it ran,
followed by those left, are all the jobs queued. -/
theorem Runs.run {past : List (Job Reaction Value Failure)} {w : World} (runs : H.Runs past w)
    (es : List Happening) :
    ∃ past', H.Runs past' (Happening.run es w) ∧
      past' ++ (Happening.run es w).loop.jobs = past ++ Happening.queued es w := by
  induction es generalizing past w with
  | nil => exact ⟨past, runs, rfl⟩
  | cons e es ih =>
    obtain ⟨past', runs', history⟩ := ih (Happening.runs e runs)
    exact ⟨past', runs', by rw [Happening.run_cons, history, Happening.queued, List.append_assoc]⟩

end Handler

/-! ## What a stage has done, against how it ends -/

theorem Handled.early_prefix (quiet : Bool) (result : Handled) :
    result.early quiet <+: result.notices quiet := by
  cases result <;> simp [Handled.early, Handled.notices]

/-- How the handling at a stage ends, once its response went out or failed
to; before that nothing is recorded or queued, and a dismissal stands for
every ending. -/
def Handler.ending (H : Handler) : Handler.Stage → Handled
  | .sending path r summary sent | .written path r summary sent | .responded path r summary sent =>
    Handled.ofSend H.fault path r summary sent
  | .served result | .done result => result
  | .reading | .read _ | .parsed _ => .dismissed

namespace Handler

variable {H : Handler}

theorem ending_reportable {st : Stage} (valid : st.Valid) : (H.ending st).Reportable := by
  cases st
  case sending sent | written sent | responded sent => exact Handled.ofSend_reportable _ _ _ _ sent
  case served result | done result => exact valid
  all_goals trivial

theorem added_prefix (quiet : Bool) (st : Stage) : st.added quiet <+: (H.ending st).notices quiet := by
  cases st
  case responded path r summary sent =>
    cases sent
    case rejected => exact List.nil_prefix
    case fulfilled =>
      cases fault : H.fault <;> simp [ending, Stage.added, Handled.ofSend, Handled.notices, fault]
  case served result => exact Handled.early_prefix quiet result
  case done result => exact List.prefix_refl _
  all_goals exact List.nil_prefix

theorem wires_prefix (st : Stage) : H.wires st <+: (H.ending st).wire H.socket := by
  cases st
  case done result => exact List.prefix_refl _
  case reading | read _ | parsed _ => exact List.nil_prefix
  all_goals exact List.prefix_append _ _

namespace At

variable {st : Stage} {past : List (Job Reaction Value Failure)} {w : World}

/-- What the handler has recorded and queued at any stage, against how it
ends: a beginning of it, all of it once its own cell settled, which it does
with success and only when done; with nothing queued, a handler not done
still waits for its read. -/
theorem report (now : H.At st past w) :
    ∃ result : Handled, result.Reportable ∧
      ∃ ns, w.notices.toList = H.before ++ ns ∧ ns <+: result.notices H.config.quiet ∧
        (past ++ w.loop.jobs).filterMap Job.wire <+: result.wire H.socket ∧
        (w.loop.outcome? H.base = none ∨ w.loop.outcome? H.base = some (.fulfilled .unit)) ∧
        (w.loop.outcome? H.base = some (.fulfilled .unit) →
          ns = result.notices H.config.quiet ∧ (past ++ w.loop.jobs).filterMap Job.wire = result.wire H.socket) ∧
        (w.loop.jobs = [] → w.loop.outcome? H.base = none → w.loop.outcome? (H.base + 3) = none) := by
  refine ⟨H.ending st, ending_reportable now.valid, st.added H.config.quiet, now.notices, added_prefix _ st,
    by rw [now.wires]; exact wires_prefix st, ?_⟩
  by_cases finished : ∃ result, st = .done result
  · obtain ⟨result, rfl⟩ := finished
    have settled : w.loop.outcome? H.base = some (.fulfilled .unit) :=
      (outcome?_eq_some w.loop).2 (now.cells.cell_holds (i := 0) rfl)
    exact ⟨Or.inr settled, fun _ => ⟨rfl, now.wires⟩, fun _ waiting => by simp [settled] at waiting⟩
  · have own : (H.cells st)[0]? = some (.waits []) := by
      cases st
      case done result => exact absurd ⟨result, rfl⟩ finished
      all_goals rfl
    have waiting : w.loop.outcome? H.base = none := Pending.outcome? ⟨_, now.cells.cell_waits own⟩
    refine ⟨Or.inl waiting, fun settled => by simp [waiting] at settled, fun empty _ => ?_⟩
    obtain ⟨lead, -, filtered⟩ := now.jobs
    rw [empty, List.filter_nil] at filtered
    cases st
    case reading => exact Pending.outcome? ⟨_, now.cells.cell_waits (i := 3) rfl⟩
    case done result => exact absurd ⟨result, rfl⟩ finished
    all_goals simp [next] at filtered

end At

end Handler

/-! ## Handling a connection -/

end Machine
end HttpStub
