import HttpStub.Proofs.Machine.Moves
import HttpStub.Proofs.Loop
import HttpStub.Proofs.Machine.Hoare

/-!
# One connection and what happens to it

A handler serves one connection.  Around it, the rest of the world goes on:
queued jobs run one at a time, timers fire, and any endpoint may hear data,
the end of its peer's writing, a close or an error.  A `Happening` is one of
these, and a run of happenings is any sequence of them; it is all that can
happen to a handled connection, in any order.

Over a run, the jobs queued are the record of what the handler did to its
connection: a write is a `deliver` task, a close is a `shut` task.  The jobs
a run ran, followed by those still queued, are every job queued along it.

How handling ended is a `Handled`: the read failed, an empty read was
dismissed, the response went out, with or without a listener of its report
throwing, or writing it failed.  Each of these has
the notices the handler records and the bytes it writes.

The code of a handler makes its cells one after another and settles them one
stage at a time, so what it expects of its cells is a list read from the first
of them on: a cell waits with given reactions, holds a given outcome, or has
settled somehow.  `Loop.Matches` states that a loop's cells are as expected,
and the lemmas beside it say how each operation on cells changes what is
expected.
-/

namespace HttpStub

namespace Async
namespace Loop

variable {κ υ ε : Type}

/-- What is expected of a cell: waiting with these reactions, settled with
this outcome, or settled with some outcome. -/
inductive Expect (κ υ ε : Type) where
  | waits (ks : List κ)
  | holds (o : Outcome υ ε)
  | spent

/-- Whether a cell of a loop, if it exists, is as expected. -/
def Expect.Meets : Expect κ υ ε → Option (Cell κ υ ε) → Prop
  | .waits ks, c => c = some (.pending ks)
  | .holds o, c => c = some (.settled o)
  | .spent, c => ∃ o, c = some (.settled o)

/-- The cells of a loop from `base` on are as `es` expects, and there are no
others. -/
def Matches (l : Loop κ υ ε) (base : Nat) (es : List (Expect κ υ ε)) : Prop :=
  l.cells.size = base + es.length ∧
    ∀ i (e : Expect κ υ ε), es[i]? = some e → e.Meets l.cells[base + i]?

namespace Matches

variable {l : Loop κ υ ε} {base : Nat} {es : List (Expect κ υ ε)}

theorem of_cells {l' : Loop κ υ ε} (same : l'.cells = l.cells) (matched : l.Matches base es) :
    l'.Matches base es := by
  rw [Matches, same]
  exact matched

theorem cell_waits (matched : l.Matches base es) {i : Nat} {ks : List κ}
    (expected : es[i]? = some (.waits ks)) : l.cells[base + i]? = some (.pending ks) :=
  matched.2 i _ expected

theorem cell_holds (matched : l.Matches base es) {i : Nat} {o : Outcome υ ε}
    (expected : es[i]? = some (.holds o)) : l.cells[base + i]? = some (.settled o) :=
  matched.2 i _ expected

theorem set_cases {α : Type} {xs : List α} {i j : Nat} {a x : α} (inside : i < xs.length)
    (found : (xs.set i a)[j]? = some x) : (i = j ∧ x = a) ∨ (i ≠ j ∧ xs[j]? = some x) := by
  by_cases same : i = j
  · subst same
    rw [List.getElem?_set_self inside] at found
    exact Or.inl ⟨rfl, (Option.some.inj found).symm⟩
  · rw [List.getElem?_set_ne same] at found
    exact Or.inr ⟨same, found⟩

theorem lt_of_expected {i : Nat} {e : Expect κ υ ε} (expected : es[i]? = some e) : i < es.length :=
  (List.getElem?_eq_some_iff.1 expected).1

/-- A cell expected to hold an outcome has settled. -/
theorem spend (matched : l.Matches base es) {i : Nat} {o : Outcome υ ε}
    (expected : es[i]? = some (.holds o)) : l.Matches base (es.set i .spent) := by
  refine ⟨by simpa using matched.1, fun j e found => ?_⟩
  rcases set_cases (lt_of_expected expected) found with ⟨rfl, rfl⟩ | ⟨-, found⟩
  · exact ⟨o, matched.cell_holds expected⟩
  · exact matched.2 j e found

theorem modify_below (matched : l.Matches base es) {c : Nat} (below : c < base)
    {f : Cell κ υ ε → Cell κ υ ε} {l' : Loop κ υ ε} (cells : l'.cells = l.cells.modify c f) :
    l'.Matches base es := by
  refine ⟨by simpa [cells] using matched.1, fun i e found => ?_⟩
  have other : c ≠ base + i := by omega
  simpa [cells, Array.getElem?_modify, other] using matched.2 i e found

theorem settle_below (matched : l.Matches base es) {c : Nat} (below : c < base) (o : Outcome υ ε) :
    (l.settle c o).Matches base es := by
  unfold settle
  split
  · exact matched.modify_below (f := fun _ => .settled o) below rfl
  · exact matched

theorem settle_waits (matched : l.Matches base es) {i : Nat} {ks : List κ}
    (expected : es[i]? = some (.waits ks)) (o : Outcome υ ε) :
    (l.settle (base + i) o).Matches base (es.set i (.holds o)) ∧
      (l.settle (base + i) o).jobs = l.jobs ++ ks.map (Job.resume · o) := by
  have pending := matched.cell_waits expected
  refine ⟨⟨by simpa using matched.1, fun j e found => ?_⟩, by rw [settle_of_pending l pending]⟩
  rw [getElem?_settle l pending]
  rcases set_cases (lt_of_expected expected) found with ⟨rfl, rfl⟩ | ⟨other, found⟩
  · simp [Expect.Meets]
  · have distinct : base + i ≠ base + j := by omega
    rw [if_neg distinct]
    exact matched.2 j e found

theorem onSettled_waits (matched : l.Matches base es) {i : Nat} {ks : List κ}
    (expected : es[i]? = some (.waits ks)) (k : κ) :
    (l.onSettled (base + i) k).Matches base (es.set i (.waits (ks ++ [k]))) ∧
      (l.onSettled (base + i) k).jobs = l.jobs := by
  have pending := matched.cell_waits expected
  refine ⟨⟨by simpa using matched.1, fun j e found => ?_⟩, by rw [onSettled_of_pending l pending]⟩
  rw [getElem?_onSettled l pending]
  rcases set_cases (lt_of_expected expected) found with ⟨rfl, rfl⟩ | ⟨other, found⟩
  · simp [Expect.Meets]
  · have distinct : base + i ≠ base + j := by omega
    rw [if_neg distinct]
    exact matched.2 j e found

theorem onSettled_holds (matched : l.Matches base es) {i : Nat} {o : Outcome υ ε}
    (expected : es[i]? = some (.holds o)) (k : κ) :
    l.onSettled (base + i) k = { l with jobs := l.jobs ++ [.resume k o] } :=
  onSettled_of_settled l (matched.cell_holds expected) k

/-- The cell after the expected ones is new. -/
theorem push (matched : l.Matches base es) {c : Cell κ υ ε} {e : Expect κ υ ε} (meets : e.Meets (some c))
    {l' : Loop κ υ ε} (cells : l'.cells = l.cells.push c) : l'.Matches base (es ++ [e]) := by
  have size := matched.1
  refine ⟨by simp [cells, size, Nat.add_assoc], fun i e' found => ?_⟩
  rw [cells, Array.getElem?_push]
  rw [List.getElem?_append] at found
  split at found
  · next inside =>
    rw [if_neg (by omega)]
    exact matched.2 i e' found
  · next outside =>
    rw [List.getElem?_singleton] at found
    split at found
    · next last =>
      cases found
      rw [if_pos (by omega)]
      exact meets
    · cases found

/-- A new cell is the next one, and waits with no reactions. -/
theorem fresh (matched : l.Matches base es) :
    l.fresh.1 = base + es.length ∧ l.fresh.2.Matches base (es ++ [.waits []]) :=
  ⟨matched.1, matched.push (e := .waits []) rfl rfl⟩

/-- A new settled cell is the next one, and holds its outcome. -/
theorem settledCell (matched : l.Matches base es) (o : Outcome υ ε) :
    (l.settledCell o).1 = base + es.length ∧ (l.settledCell o).2.Matches base (es ++ [.holds o]) :=
  ⟨matched.1, matched.push (e := .holds o) rfl rfl⟩

end Matches
end Loop
end Async

namespace Machine

open Async

/-- What can happen to a handled connection besides its handler's own code:
the next queued job runs, the earliest timer due by `limit` fires, or an
endpoint hears data, the end of its peer's writing, a close or an error. -/
inductive Happening where
  | job
  | fire (limit : Nat)
  | data (e : Nat) (chunk : List UInt8)
  | finished (e : Nat)
  | closed (e : Nat)
  | failed (e : Nat) (err : Failure)

namespace Happening

/-- The world after a happening. -/
def apply : Happening → World → World
  | job, w => (Session.Server.runNext.run w).2
  | fire limit, w =>
    match w.loop.fireDue? limit with
    | some loop => { w with loop }
    | none => w
  | data e chunk, w => ((arrive e chunk).run w).2
  | finished e, w => ((arriveEnd e).run w).2
  | closed e, w => ((closeNow e).run w).2
  | failed e err, w => ((fail e err).run w).2

/-- The job a happening runs: the first queued one, when a job runs. -/
def ran : Happening → World → List (Job Reaction Value Failure)
  | job, w => w.loop.jobs.take 1
  | _, _ => []

/-- The world after a run of happenings. -/
def run (es : List Happening) (w : World) : World :=
  es.foldl (fun w e => e.apply w) w

@[simp] theorem run_nil (w : World) : run [] w = w := rfl

@[simp] theorem run_cons (e : Happening) (es : List Happening) (w : World) :
    run (e :: es) w = run es (e.apply w) := rfl

/-- Every job queued over a run, in the order queued: the jobs it ran, then
those still queued at its end. -/
def queued : List Happening → World → List (Job Reaction Value Failure)
  | [], w => w.loop.jobs
  | e :: es, w => e.ran w ++ queued es (e.apply w)

end Happening

/-- What a job does to the wire: write a chunk, or close an endpoint. -/
inductive Wire where
  | write (chunk : List UInt8)
  | close (socket : Nat)
  deriving DecidableEq, Repr

/-- What a job does to the wire, if anything. -/
def Job.wire : Job Reaction Value Failure → Option Wire
  | .task (.deliver _ chunk) => some (.write chunk)
  | .task (.shut s) => some (.close s)
  | _ => none

@[simp] theorem Job.wire_resume (k : Reaction) (o : Outcome Value Failure) :
    Job.wire (.resume k o) = none := rfl

@[simp] theorem Job.wire_readTimedOut (r : Nat) : Job.wire (.task (.readTimedOut r)) = none := rfl

/-- How the handling of a connection ended. -/
inductive Handled where
  /-- The read failed, or timed out. -/
  | unread (f : Failure)
  /-- The read brought nothing, and empty requests close. -/
  | dismissed
  /-- The response went out. -/
  | answered (path : String) (response : Response) (summary : String)
  /-- The response went out, and a listener of its report threw. -/
  | faulted (path : String) (response : Response) (summary : String) (f : Failure)
  /-- Writing the response failed. -/
  | unanswered (path : String) (response : Response) (f : Failure)

namespace Handled

/-- How serving settled: with success, or with the failure to report. -/
def outcome : Handled → Outcome Value Failure
  | unread f | faulted _ _ _ f | unanswered _ _ f => .rejected f
  | dismissed | answered .. => .fulfilled .unit

/-- The line of a response that went out, unless quiet, and its report. -/
def told (quiet : Bool) (path : String) (r : Response) (summary : String) : List Notice :=
  (if quiet then [] else [.log .info s!"{summary} {r.status.render} - {Endpoint.remoteAddress}" []]) ++
    [.response path r.status]

/-- The lines logged and the events reported, in order; `quiet` leaves out
the line of a response. -/
def notices (quiet : Bool) : Handled → List Notice
  | unread f | unanswered _ _ f =>
    [.log .warn s!"{f.message} ({Endpoint.remoteAddress})" [], .connectionError f]
  | dismissed => [.log .debug s!"Empty request from {Endpoint.remoteAddress}, closing" []]
  | answered path r summary => told quiet path r summary
  | faulted path r summary f => told quiet path r summary ++ [.log .error "Unexpected connection failure:" [f]]

/-- The bytes written: the response, if it went out. -/
def sent : Handled → List (List UInt8)
  | answered _ r _ | faulted _ r _ _ => [r.serialize]
  | _ => []

/-- The writes and the close, in order. -/
def wire (s : Nat) (result : Handled) : List Wire :=
  result.sent.map .write ++ [.close s]

end Handled

end Machine
end HttpStub
