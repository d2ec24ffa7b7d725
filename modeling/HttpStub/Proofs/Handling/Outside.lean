import HttpStub.Proofs.Handling.Stages

/-!
# What the rest of the world does to a handler

Around a handler, any endpoint may hear data, an end, a close or an error,
and a due timer may fire.  None of this touches the handler's cells but
one: the raw read settles when the read's listener first hears something,
and a handler that was reading then goes on to the next stage.

The lemmas here show that each such thing keeps a handler at some stage,
along the steps the code takes: one listener hears, several hear in turn,
and an endpoint takes data, an end, a close or an error.  Besides the
listeners of the handler's read there are other reads, whose cells come
before the handler's, the server's set of live connections, clients
collecting what they receive, and taps.
-/

namespace HttpStub
namespace Machine

open Async Loop

namespace Handler

variable {H : Handler} {st : Stage} {past : List (Job Reaction Value Failure)} {w : World}

/-! ## The frame -/

namespace Frame

variable (frame : H.Frame w)
include frame

/-- A world with the same server, loop, reads and clients has the same
frame. -/
theorem congr {w' : World} (server : w'.server = w.server) (loop : w'.loop = w.loop)
    (readers : w'.readers = w.readers) (clients : w'.clients = w.clients) : H.Frame w' where
  server := by rw [server]; exact frame.server
  quiet := by rw [loop]; exact frame.quiet
  readers := by rw [readers]; exact frame.readers
  clients := by rw [clients]; exact frame.clients
  timers := by rw [loop]; exact frame.timers

theorem modify_reader (i : Nat) {f : Reader → Reader} (keeps : ∀ x, (f x).cell = x.cell) :
    H.Frame { w with readers := w.readers.modify i f } := by
  refine { frame with readers := fun j rd found other => ?_ }
  rw [Array.getElem?_modify] at found
  split at found
  · obtain ⟨rd', found', rfl⟩ := Option.map_eq_some_iff.1 found
    rw [keeps]
    exact frame.readers j rd' found' other
  · exact frame.readers j rd found other

/-- Settling a cell keeps the frame: no cell that waits on something comes
to be. -/
theorem settle (c : CellId) (o : Outcome Value Failure) :
    H.Frame { w with loop := w.loop.settle c o } := by
  refine { frame with quiet := fun c' below' ks found => ?_, timers := ?_ }
  · by_cases pending : ∃ ks', w.loop.cells[c]? = some (.pending ks')
    · obtain ⟨ks', pending⟩ := pending
      rw [getElem?_settle w.loop pending] at found
      split at found
      · cases found
      · exact frame.quiet c' below' ks found
    · rw [settle_of_not_pending w.loop (fun ks' found' => pending ⟨ks', found'⟩)] at found
      exact frame.quiet c' below' ks found
  · simpa using frame.timers

/-- A change to the loop that keeps the cells before the handler's and
starts no timer keeps the frame. -/
theorem with_loop {l : Loop Reaction Value Failure}
    (below : ∀ c < H.base, l.cells[c]? = w.loop.cells[c]?) (timers : ∀ t ∈ l.timers, t ∈ w.loop.timers) :
    H.Frame { w with loop := l } where
  server := frame.server
  quiet c lt ks found := frame.quiet c lt ks (by rwa [below c lt] at found)
  readers := frame.readers
  clients := frame.clients
  timers t mem := frame.timers t (timers t mem)

/-- Cancelling a timer keeps the frame. -/
theorem disarm (rd : Reader) : H.Frame { w with loop := rd.disarm w.loop } :=
  frame.with_loop (by simp) fun _ => rd.mem_timers_disarm w.loop

end Frame

/-! ## Worlds at the same stage -/

theorem ReaderAt.congr {w' : World} (same : w'.readers[H.reader]? = w.readers[H.reader]?)
    (reader : H.ReaderAt w st) : H.ReaderAt w' st := by
  cases st <;> simpa only [ReaderAt, ReadDone, same] using reader

namespace At

variable (now : H.At st past w)
include now

/-- A world whose frame, cells, jobs, handler's read and notices are those of
a world at a stage is at that stage too. -/
theorem congr {w' : World} (frame : H.Frame w') (cells : w'.loop.Matches H.base (H.cells st))
    (jobs : w'.loop.jobs = w.loop.jobs) (reader : w'.readers[H.reader]? = w.readers[H.reader]?)
    (notices : w'.notices = w.notices) : H.At st past w' where
  frame := frame
  cells := cells
  jobs := by rw [jobs]; exact now.jobs
  reader := ReaderAt.congr reader now.reader
  valid := now.valid
  notices := by rw [notices]; exact now.notices
  wires := by rw [jobs]; exact now.wires

/-- A change that leaves the loop, the reads and the notices alone keeps the
stage. -/
theorem aside {w' : World} (frame : H.Frame w') (loop : w'.loop = w.loop)
    (readers : w'.readers = w.readers) (notices : w'.notices = w.notices) : H.At st past w' :=
  now.congr frame (now.cells.of_cells (by rw [loop])) (by rw [loop]) (by rw [readers]) notices

theorem settle_below {c : CellId} (below : c < H.base) (o : Outcome Value Failure) :
    H.At st past { w with loop := w.loop.settle c o } :=
  now.congr (now.frame.settle c o) (now.cells.settle_below below o)
    (jobs_settle_of_quiet (now.frame.quiet c below) o) rfl rfl

theorem reading_of_unsettled {rd : Reader} (found : w.readers[H.reader]? = some rd)
    (unsettled : rd.settled = false) : st = .reading := by
  cases st
  case reading => rfl
  all_goals
    have settled := (now.reader rd found).2
    simp [unsettled] at settled

theorem settle_other {i : Nat} {rd : Reader} (found : w.readers[i]? = some rd) (other : i ≠ H.reader)
    (o : Outcome Value Failure) :
    H.At st past { w with readers := w.readers.modify i fun x => { x with settled := true },
                          loop := (rd.disarm w.loop).settle rd.cell o } := by
  have marked : H.At st past { w with readers := w.readers.modify i fun x => { x with settled := true } } :=
    now.congr (now.frame.modify_reader i (f := fun x => { x with settled := true }) fun _ => rfl) now.cells
      rfl (by simp [Array.getElem?_modify, other]) rfl
  have disarmed := marked.congr (marked.frame.disarm rd) (marked.cells.of_cells (by simp))
    (by simp) rfl rfl
  exact disarmed.settle_below (now.frame.readers i rd found other) o

theorem settle_read {rd : Reader} (found : w.readers[H.reader]? = some rd)
    (unsettled : rd.settled = false) {o : Outcome Value Failure} (valid : o.IsRead) :
    H.At (.read o) past { w with readers := w.readers.modify H.reader fun x => { x with settled := true },
                                 loop := (rd.disarm w.loop).settle rd.cell o } := by
  obtain rfl := now.reading_of_unsettled found unsettled
  obtain ⟨rd', found', cell, -⟩ := now.reader
  obtain rfl : rd' = rd := Option.some.inj (found'.symm.trans found)
  have waits : (H.cells .reading)[3]? = some (.waits [H.reading]) := rfl
  obtain ⟨cells, jobs⟩ :=
    (Matches.of_cells (rd'.cells_disarm w.loop) now.cells).settle_waits waits o
  obtain ⟨lead, leadAt, filtered⟩ := now.jobs
  obtain rfl : lead = [] := leadAt
  rw [cell]
  have marked := now.frame.modify_reader H.reader (f := fun x => { x with settled := true }) fun _ => rfl
  refine { frame := (marked.disarm rd').settle _ o, cells := cells,
           jobs := ⟨[], rfl, ?_⟩, reader := fun rd'' found'' => ?_, valid := valid,
           notices := now.notices, wires := ?_ }
  · rw [jobs, List.filter_append, Reader.jobs_disarm, filtered]
    simp [next, stray]
  · simp only [Array.getElem?_modify, if_true, found, Option.map_some, Option.some.injEq] at found''
    subst found''
    exact ⟨cell, rfl⟩
  · rw [jobs, Reader.jobs_disarm, ← List.append_assoc, List.filterMap_append, now.wires]
    simp [Handler.wires, Job.wire]

/-- A due timer firing queues a timeout of the handler's read, which the
stage ignores. -/
theorem fire {limit : Nat} {l : Loop Reaction Value Failure} (fired : w.loop.fireDue? limit = some l) :
    H.At st past { w with loop := l } := by
  obtain ⟨t, mem, rfl⟩ := fireDue?_eq_some w.loop fired
  have task := now.frame.timers t mem
  obtain ⟨lead, leadAt, filtered⟩ := now.jobs
  refine { now with
    frame := now.frame.with_loop (fun _ _ => rfl) fun _ mem' => (List.mem_filter.1 mem').1
    cells := now.cells.of_cells rfl
    jobs := ⟨lead, leadAt, ?_⟩
    wires := ?_ }
  · simpa [task] using filtered
  · simpa [task, List.filterMap_cons] using now.wires

end At

/-! ## Listeners and endpoints -/

/-- Settling any read keeps the handler at some stage, provided it settles
as a read does. -/
theorem settleReader_runs (i : Nat) {o : Outcome Value Failure} (valid : o.IsRead) :
    Holds (H.Runs past) (settleReader i o) (fun _ => H.Runs past) := by
  rintro w ⟨st, now⟩
  by_cases waiting : ∃ rd, w.readers[i]? = some rd ∧ rd.settled = false
  · obtain ⟨rd, found, unsettled⟩ := waiting
    rw [settleReader_run o found unsettled]
    by_cases own : i = H.reader
    · subst own
      exact ⟨_, now.settle_read found unsettled valid⟩
    · exact ⟨st, now.settle_other found own o⟩
  · have settled : ∀ rd, w.readers[i]? = some rd → rd.settled = true := fun rd found => by
      simpa using fun unsettled => waiting ⟨rd, found, unsettled⟩
    rw [settleReader_run_of_settled o settled]
    exact ⟨st, now⟩

theorem modifyEndpoint_runs (s : Nat) (f : Endpoint → Endpoint) :
    Holds (H.Runs past) (modifyEndpoint s f) (fun _ => H.Runs past) := by
  rintro w ⟨st, now⟩
  exact ⟨st, now.aside (now.frame.congr rfl rfl rfl rfl) rfl rfl rfl⟩

theorem hear_runs (s : Nat) (hook : Hook) (signal : Signal) :
    Holds (H.Runs past) (hear s hook signal) (fun _ => H.Runs past) := by
  have unchanged : Holds (H.Runs past) (pure () : Sim Unit) (fun _ => H.Runs past) :=
    Holds.pure fun _ runs => runs
  cases hook with
  | reader r =>
    cases signal with
    | data chunk =>
      refine Holds.bind Holds.get fun _ => (settleReader_runs r ?_).strengthen fun _ pre => pre.1
      exact ⟨_, rfl⟩
    | finished => exact settleReader_runs r ⟨_, rfl⟩
    | closed => exact settleReader_runs r ⟨_, rfl⟩
    | failed err => exact settleReader_runs r rfl
  | tracker =>
    cases signal with
    | closed =>
      rintro w ⟨st, now⟩
      obtain ⟨srv, found, config, table, fault⟩ := now.frame.server
      refine ⟨st, now.aside { now.frame with server := ⟨{ srv with live := srv.live.erase s }, ?_, config, table, fault⟩ }
        rfl rfl rfl⟩
      exact congrArg (Option.map _) found
    | _ => exact unchanged
  | client c =>
    cases signal with
    | data chunk =>
      rintro w ⟨st, now⟩
      refine ⟨st, now.aside { now.frame with clients := fun i k found => ?_ } rfl rfl rfl⟩
      change (w.clients.modify c _)[i]? = some k at found
      rw [Array.getElem?_modify] at found
      split at found
      · obtain ⟨k', found', rfl⟩ := Option.map_eq_some_iff.1 found
        exact now.frame.clients i k' found'
      · exact now.frame.clients i k found
    | closed =>
      rintro w ⟨st, now⟩
      simp only [hear, bind_run, get_run]
      cases found : w.clients[c]? with
      | none => exact ⟨st, now⟩
      | some k => exact ⟨st, now.settle_below (now.frame.clients c k found) _⟩
    | _ => exact unchanged
  | tap t =>
    cases signal with
    | data chunk =>
      rintro w ⟨st, now⟩
      exact ⟨st, now.aside (now.frame.congr rfl rfl rfl rfl) rfl rfl rfl⟩
    | _ => exact unchanged

theorem hearAll_runs (s : Nat) (hooks : List Hook) (signal : Signal) :
    Holds (H.Runs past) (hearAll s hooks signal) (fun _ => H.Runs past) :=
  Holds.forM_const fun hook _ => hear_runs s hook signal

theorem arrive_runs (s : Nat) (chunk : List UInt8) :
    Holds (H.Runs past) (arrive s chunk) (fun _ => H.Runs past) := by
  refine Holds.endpoint_bind s fun e => ?_
  split
  · exact Holds.pure fun _ runs => runs
  · split
    · exact modifyEndpoint_runs s _
    · exact hearAll_runs s _ _

theorem arriveEnd_runs (s : Nat) : Holds (H.Runs past) (arriveEnd s) (fun _ => H.Runs past) := by
  refine Holds.endpoint_bind s fun e => ?_
  split
  · exact Holds.pure fun _ runs => runs
  · exact Holds.bind (modifyEndpoint_runs s _) fun _ => hearAll_runs s _ _

theorem closeOne_runs (s : Nat) : Holds (H.Runs past) (closeOne s) (fun _ => H.Runs past) := by
  refine Holds.endpoint_bind s fun e => ?_
  split
  · exact Holds.pure fun _ runs => runs
  · exact Holds.bind (modifyEndpoint_runs s _) fun _ => hearAll_runs s _ _

theorem closeNow_runs (s : Nat) : Holds (H.Runs past) (closeNow s) (fun _ => H.Runs past) := by
  refine Holds.endpoint_bind s fun e => ?_
  split
  · exact Holds.pure fun _ runs => runs
  · exact Holds.bind (closeOne_runs s) fun _ => closeOne_runs _

theorem fail_runs (s : Nat) (err : Failure) :
    Holds (H.Runs past) (fail s err) (fun _ => H.Runs past) := by
  refine Holds.endpoint_bind s fun e => ?_
  split
  · exact Holds.pure fun _ runs => runs
  · exact Holds.bind (modifyEndpoint_runs s _) fun _ =>
      Holds.bind (hearAll_runs s _ _) fun _ => closeNow_runs s

end Handler

end Machine
end HttpStub
