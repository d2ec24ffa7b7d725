import HttpStub.Proofs.Handling.Start

namespace HttpStub

/-!
# A raw read settles by the first thing that decides it

A raw read of a request looks at its socket once as it begins and then
waits.  As it begins, a recorded error fails it; a chunk that arrived
before anyone listened is heard as the read registers its data listener,
and settles it with the bytes of that chunk before the buffer size; a
socket already closed, or whose peer already finished writing, settles it
with no bytes.  Otherwise the first later event on the socket decides: a
chunk, the peer's end, a close, an error, or, for a positive timeout, the
time running out.  Whatever comes after that changes nothing.

The events are those of the socket the read waits on (`SocketEvent`): a
chunk arrives, the peer finishes writing, the socket closes or fails, or
time passes.  The world around the read is calm (`Calm`): nothing queued,
no timers, nothing waiting on a cell, every read and client waiting on a
cell already made, and every read's timer one already handed out.

`RawRead.At R st w` says that the world `w` holds the read `R` at progress
`st`: waiting, with its cell pending, its record unsettled, its timer set
when it times out, and the clock `waited` units past its start; or settled
with an outcome.  Around it the `Frame` holds: no job is queued, nothing
waits on a cell, and no other read or client can settle the read's cell.
Every event moves the read along `Progress.step`, and a run of events
along the fold of it.

Main statement, `raw_read_settles_by_first_event`: from a calm world, the
read's cell after any run of events holds the outcome the read's start
decides, or else the one the first deciding event gives, and none while
nothing has decided; once it holds an outcome, no further event changes it.
-/

namespace Async.Loop

variable {κ υ ε : Type} (l : Loop κ υ ε)

@[simp] theorem clock_settle (c : CellId) (o : Outcome υ ε) : (l.settle c o).clock = l.clock := by
  unfold settle
  split <;> rfl

@[simp] theorem nextTimer_settle (c : CellId) (o : Outcome υ ε) : (l.settle c o).nextTimer = l.nextTimer := by
  unfold settle
  split <;> rfl

theorem getElem?_settle_of_ne {c x : CellId} (other : c ≠ x) (o : Outcome υ ε) :
    (l.settle c o).cells[x]? = l.cells[x]? := by
  by_cases pending : ∃ ks, l.cells[c]? = some (.pending ks)
  · obtain ⟨ks, pending⟩ := pending
    rw [getElem?_settle l pending, if_neg other]
  · rw [settle_of_not_pending l (fun ks found => pending ⟨ks, found⟩)]

theorem pending_of_settle {c x : CellId} {o : Outcome υ ε} {ks : List κ}
    (found : (l.settle c o).cells[x]? = some (.pending ks)) : l.cells[x]? = some (.pending ks) := by
  by_cases same : c = x
  · subst same
    exact absurd found (settle_not_pending l c o ks)
  · rwa [getElem?_settle_of_ne l same] at found

end Async.Loop

namespace Machine

open Async Loop

namespace Reader

variable (rd : Reader) (l : Loop Reaction Value Failure)

@[simp] theorem clock_disarm : (rd.disarm l).clock = l.clock := by
  unfold disarm
  split <;> rfl

@[simp] theorem nextTimer_disarm : (rd.disarm l).nextTimer = l.nextTimer := by
  unfold disarm
  split <;> rfl

@[simp] theorem outcome?_disarm (c : CellId) : (rd.disarm l).outcome? c = l.outcome? c := by
  unfold Loop.outcome?
  rw [cells_disarm]

end Reader

theorem settleWithin_idle {w : World} (idle : w.loop.jobs = []) (k : Nat) :
    (settleWithin k).run w = ((), w) := by
  cases k with
  | zero => rfl
  | succ k =>
    simp only [settleWithin, bind_run, get_run, Loop.next?, idle]
    rfl

theorem settleWithin_single {w : World} {l : Loop Reaction Value Failure} {j : Job Reaction Value Failure}
    (queued : l.jobs = [j]) (quiet : ((runJob j).run { w with loop := { l with jobs := [] } }).2.loop.jobs = [])
    (k : Nat) :
    ((settleWithin (k + 1)).run { w with loop := l }).2 = ((runJob j).run { w with loop := { l with jobs := [] } }).2 := by
  simp only [settleWithin, bind_run, get_run, Loop.next?, queued]
  exact congrArg Prod.snd (settleWithin_idle quiet k)

theorem settleAll_single {w : World} {l : Loop Reaction Value Failure} {j : Job Reaction Value Failure}
    (queued : l.jobs = [j]) (quiet : ((runJob j).run { w with loop := { l with jobs := [] } }).2.loop.jobs = []) :
    ((settleAll).run { w with loop := l }).2 = ((runJob j).run { w with loop := { l with jobs := [] } }).2 :=
  settleWithin_single queued quiet 999999

theorem readTimedOut_run (r : Nat) (w : World) :
    (readTimedOut r).run w =
      (settleReader r (.rejected (Failure.readTimeout ((w.readers[r]?.map (·.timeoutMs)).getD 0)))).run w := by
  rw [show readTimedOut r = (get >>= fun w' : World =>
    settleReader r (.rejected (Failure.readTimeout ((w'.readers[r]?.map (·.timeoutMs)).getD 0)))) from rfl,
    bind_run, get_run]

theorem readTimedOut_run_of_settled {r : Nat} {w : World}
    (settled : ∀ rd, w.readers[r]? = some rd → rd.settled = true) : (readTimedOut r).run w = ((), w) := by
  rw [readTimedOut_run]
  exact settleReader_run_of_settled _ settled

/-- Time passing with nothing queued: the timers due fire, each with what
it causes, then the clock is set and what is queued settles. -/
theorem advance_run_of_idle {w : World} (idle : w.loop.jobs = []) (ms : Nat) :
    ((advance ms).run w).2 =
      ((settleAll).run { ((fireWithin (w.loop.clock + ms) timerBudget).run w).2 with
        loop := { ((fireWithin (w.loop.clock + ms) timerBudget).run w).2.loop with
          clock := w.loop.clock + ms } }).2 := by
  have settled : (settleAll).run w = ((), w) := settleWithin_idle idle jobBudget
  rw [show advance ms = (do
      settleAll
      let limit := (← get).loop.clock + ms
      fireWithin limit timerBudget
      modify fun w => { w with loop := { w.loop with clock := limit } }
      settleAll) from rfl]
  simp only [bind_run, get_run, settled, StateT.run_modify]
  rfl

/-- A read's data listener hearing a chunk settles the read with the bytes
before its buffer size. -/
theorem hear_data_run (s r : Nat) (chunk : List UInt8) (w : World) :
    (hear s (.reader r) (.data chunk)).run w =
      (settleReader r (.fulfilled (.bytes (Bytes.upTo ((w.readers[r]?.map (·.bufferSize)).getD 0) chunk)))).run w := by
  rw [show hear s (.reader r) (.data chunk) = (get >>= fun w' : World =>
    settleReader r (.fulfilled (.bytes (Bytes.upTo ((w'.readers[r]?.map (·.bufferSize)).getD 0) chunk)))) from rfl,
    bind_run, get_run]

/-- A read that does not wait leaves the world alone; one that waits
settles, marking its record, cancelling its timer and settling its cell. -/
theorem settleReader_run_cases (i : Nat) (o : Outcome Value Failure) (w : World) :
    ((∀ rd, w.readers[i]? = some rd → rd.settled = true) ∧ ((settleReader i o).run w).2 = w) ∨
      ∃ rd, w.readers[i]? = some rd ∧ rd.settled = false ∧
        ((settleReader i o).run w).2 =
          { w with readers := w.readers.modify i fun x => { x with settled := true },
                   loop := (rd.disarm w.loop).settle rd.cell o } := by
  by_cases waiting : ∃ rd, w.readers[i]? = some rd ∧ rd.settled = false
  · obtain ⟨rd, found, unsettled⟩ := waiting
    exact Or.inr ⟨rd, found, unsettled, settleReader_run o found unsettled⟩
  · have settled : ∀ rd, w.readers[i]? = some rd → rd.settled = true := fun rd found => by
      simpa using fun unsettled => waiting ⟨rd, found, unsettled⟩
    exact Or.inl ⟨settled, by rw [settleReader_run_of_settled o settled]⟩

theorem settleReader_sockets_nextTimer (i : Nat) (o : Outcome Value Failure) (w : World) :
    (((settleReader i o).run w).2.sockets, ((settleReader i o).run w).2.loop.nextTimer) =
      (w.sockets, w.loop.nextTimer) := by
  rcases settleReader_run_cases i o w with ⟨-, same⟩ | ⟨rd, -, -, settled⟩
  · rw [same]
  · rw [settled]
    simp

/-- What can happen to the socket a read waits on: a chunk arrives, the
peer finishes writing, the socket closes or fails, or time passes. -/
inductive SocketEvent where
  | data (chunk : List UInt8)
  | finished
  | closed
  | failed (err : Failure)
  | elapse (ms : Nat)

namespace SocketEvent

/-- The world after an event on socket `s`. -/
def apply (s : Nat) : SocketEvent → World → World
  | data chunk, w => ((arrive s chunk).run w).2
  | finished, w => ((arriveEnd s).run w).2
  | closed, w => ((closeNow s).run w).2
  | failed err, w => ((fail s err).run w).2
  | elapse ms, w => ((advance ms).run w).2

/-- The world after a run of events on socket `s`. -/
def run (s : Nat) (es : List SocketEvent) (w : World) : World :=
  es.foldl (fun w e => e.apply s w) w

@[simp] theorem run_nil (s : Nat) (w : World) : run s [] w = w := rfl

@[simp] theorem run_cons (s : Nat) (e : SocketEvent) (es : List SocketEvent) (w : World) :
    run s (e :: es) w = run s es (e.apply s w) := rfl

theorem run_append (s : Nat) (es es' : List SocketEvent) (w : World) :
    run s (es ++ es') w = run s es' (run s es w) := by
  simp [run, List.foldl_append]

end SocketEvent

/-- How a read of `size` settles on hearing a signal: with the bytes of a
chunk before position `size`, with no bytes at the end or at a close, or
with a read failure that names the error. -/
def readOutcome (size : Double) : Signal → Outcome Value Failure
  | .data chunk => .fulfilled (.bytes (Bytes.upTo size chunk))
  | .finished | .closed => .fulfilled (.bytes [])
  | .failed err => .rejected (Failure.readFailed err)

/-! ## What decides a read -/

namespace RawRead

/-- How a read of `size` settles as it begins on an endpoint, if it does: a
recorded error fails it, else the first chunk that waited unread settles it,
else a closed or finished socket settles it with no bytes. -/
def atStart (e : Endpoint) (size : Double) : Option (Outcome Value Failure) :=
  match e.lastError, e.unread with
  | some err, _ => some (.rejected (Failure.readFailed err))
  | none, chunk :: _ => some (.fulfilled (.bytes (Bytes.upTo size chunk)))
  | none, [] => if e.closed || e.ended then some (.fulfilled (.bytes [])) else none

/-- How a read that waits settles on the events after it began, `waited`
units in, if it does: the first chunk, end, close or error decides, or the
first passing of time that reaches the delay of a positive timeout. -/
def byEvents (size timeoutMs : Double) (waited : Nat) : List SocketEvent → Option (Outcome Value Failure)
  | [] => none
  | .data chunk :: _ => some (.fulfilled (.bytes (Bytes.upTo size chunk)))
  | .finished :: _ | .closed :: _ => some (.fulfilled (.bytes []))
  | .failed err :: _ => some (.rejected (Failure.readFailed err))
  | .elapse ms :: rest =>
    if Double.lt 0 timeoutMs && decide (timerDelay timeoutMs ≤ waited + ms) then
      some (.rejected (Failure.readTimeout timeoutMs))
    else byEvents size timeoutMs (waited + ms) rest

theorem byEvents_append {size timeoutMs : Double} {waited : Nat} {es : List SocketEvent}
    {o : Outcome Value Failure} (decided : byEvents size timeoutMs waited es = some o)
    (more : List SocketEvent) : byEvents size timeoutMs waited (es ++ more) = some o := by
  induction es generalizing waited with
  | nil => cases decided
  | cons e es ih =>
    cases e with
    | elapse ms =>
      simp only [byEvents, List.cons_append] at decided ⊢
      split
      · next due => rwa [if_pos due] at decided
      · next early =>
        rw [if_neg early] at decided
        exact ih decided
    | _ => exact decided

end RawRead

/-- A raw read as it was begun: on `socket`, settling `cell`, recorded as
reader `reader`, with its buffer size and timeout, at clock `start`, and
with `timerId` the number its timer gets. -/
structure RawRead where
  socket : Nat
  cell : CellId
  reader : Nat
  size : Double
  timeoutMs : Double
  start : Nat
  timerId : Nat

namespace RawRead

variable (R : RawRead)

/-- Whether the read times out: its timeout is positive. -/
def timed : Bool :=
  Double.lt 0 R.timeoutMs

/-- The time after which a read that times out does. -/
def delay : Nat :=
  timerDelay R.timeoutMs

/-- The timer of a read that times out. -/
def timer : Timer Reaction :=
  ⟨R.timerId, R.start + R.delay, .readTimedOut R.reader⟩

/-- The read's record while it waits, with its timer once armed. -/
def record (armed : Bool) : Reader :=
  ⟨R.cell, R.size, R.timeoutMs, false, if armed then some R.timerId else none⟩

/-- How far a read has got: waiting, `waited` units after it began, or
settled with an outcome. -/
inductive Progress where
  | waiting (waited : Nat)
  | settled (o : Outcome Value Failure)

/-- The outcome a read holds at a progress. -/
def Progress.outcome : Progress → Option (Outcome Value Failure)
  | .waiting _ => none
  | .settled o => some o

/-- How one event moves a read: a settled read stays; a waiting one settles
on a chunk, an end, a close or an error, and on time passing it times out
once its delay is reached and waits on otherwise. -/
def step : Progress → SocketEvent → Progress
  | .settled o, _ => .settled o
  | .waiting _, .data chunk => .settled (.fulfilled (.bytes (Bytes.upTo R.size chunk)))
  | .waiting _, .finished | .waiting _, .closed => .settled (.fulfilled (.bytes []))
  | .waiting _, .failed err => .settled (.rejected (Failure.readFailed err))
  | .waiting n, .elapse ms =>
    if R.timed && decide (R.delay ≤ n + ms) then .settled (.rejected (Failure.readTimeout R.timeoutMs))
    else .waiting (n + ms)

theorem foldl_step_settled (o : Outcome Value Failure) (es : List SocketEvent) :
    es.foldl R.step (.settled o) = .settled o := by
  induction es with
  | nil => rfl
  | cons e es ih => exact ih

theorem outcome_foldl_step (n : Nat) (es : List SocketEvent) :
    (es.foldl R.step (.waiting n)).outcome = byEvents R.size R.timeoutMs n es := by
  induction es generalizing n with
  | nil => rfl
  | cons e es ih =>
    cases e with
    | elapse ms =>
      simp only [List.foldl_cons, step, byEvents]
      by_cases due : (R.timed && decide (R.delay ≤ n + ms)) = true
      · have due' : (Double.lt 0 R.timeoutMs && decide (timerDelay R.timeoutMs ≤ n + ms)) = true := due
        rw [if_pos due, if_pos due', foldl_step_settled]
        rfl
      · have early : ¬ (Double.lt 0 R.timeoutMs && decide (timerDelay R.timeoutMs ≤ n + ms)) = true := due
        rw [if_neg due, if_neg early]
        exact ih (n + ms)
    | _ => simp only [List.foldl_cons, step, byEvents, foldl_step_settled, Progress.outcome]

/-! ## Where a read is -/

/-- What holds around a read, waiting or settled: no job is queued, nothing
waits on a cell, and no other read or client settles the read's cell. -/
structure Frame (w : World) : Prop where
  jobs : w.loop.jobs = []
  quiet : ∀ (c : CellId) (ks : List Reaction), w.loop.cells[c]? = some (.pending ks) → ks = []
  readers : ∀ (i : Nat) (rd : Reader), w.readers[i]? = some rd → i ≠ R.reader → rd.cell ≠ R.cell
  clients : ∀ (i : Nat) (k : Client), w.clients[i]? = some k → k.reply ≠ R.cell

/-- A read that waits, `waited` units after it began: its cell pending with
nothing attached, its record unsettled, and its timer, once armed, the
only one; no other read's timer has its number. -/
structure Waiting (armed : Bool) (waited : Nat) (w : World) : Prop where
  frame : R.Frame w
  cell : w.loop.cells[R.cell]? = some (.pending [])
  record : w.readers[R.reader]? = some (R.record armed)
  clock : w.loop.clock = R.start + waited
  timers : w.loop.timers = if armed then [R.timer] else []
  others : ∀ (i : Nat) (rd : Reader) (t : Nat), w.readers[i]? = some rd → i ≠ R.reader → rd.timer = some t →
    t ≠ R.timerId

/-- A read that settled with `o`: its cell holds `o`, its record, if any, is
settled, and every timer left times it out. -/
structure Settled (o : Outcome Value Failure) (w : World) : Prop where
  frame : R.Frame w
  outcome : w.loop.outcome? R.cell = some o
  record : ∀ rd : Reader, w.readers[R.reader]? = some rd → rd.settled = true
  timers : ∀ t ∈ w.loop.timers, t.task = .readTimedOut R.reader

/-- An endpoint a read waits on: open, its peer not finished, and the read
listening to it for data, the end, a close and an error. -/
structure Listens (e : Endpoint) : Prop where
  closed : e.closed = false
  ended : e.ended = false
  data : Hook.reader R.reader ∈ e.onData
  finished : Hook.reader R.reader ∈ e.onEnd
  shut : Hook.reader R.reader ∈ e.onClose
  failed : Hook.reader R.reader ∈ e.onError

/-- The world holds the read at a progress, its timer armed or not. -/
def Now (armed : Bool) : Progress → World → Prop
  | .waiting n, w => R.Waiting armed n w
  | .settled o, w => R.Settled o w

/-- The world holds the read at a progress: waiting on a socket it listens
to, with its timer armed if it times out, or settled. -/
def At : Progress → World → Prop
  | .waiting n, w => R.Waiting R.timed n w ∧ ∃ e, w.sockets[R.socket]? = some e ∧ R.Listens e
  | .settled o, w => R.Settled o w

theorem At.outcome_eq {st : Progress} {w : World} (now : R.At st w) :
    w.loop.outcome? R.cell = st.outcome := by
  cases st with
  | waiting n => exact Pending.outcome? ⟨_, now.1.cell⟩
  | settled o => exact Settled.outcome now

/-- A read settling with `o`: a waiting read settles, a settled one keeps
its outcome. -/
def Progress.settleWith (o : Outcome Value Failure) : Progress → Progress
  | .waiting _ => .settled o
  | .settled o' => .settled o'

/-- How the listeners `hooks` hearing a signal move the read: its own
listener among them settles it as a read settles on that signal. -/
def heard (hooks : List Hook) (signal : Signal) (p : Progress) : Progress :=
  if Hook.reader R.reader ∈ hooks then p.settleWith (readOutcome R.size signal) else p

@[simp] theorem settleWith_settleWith (o o' : Outcome Value Failure) (p : Progress) :
    (p.settleWith o).settleWith o' = p.settleWith o := by
  cases p <;> rfl

theorem heard_settled (hooks : List Hook) (signal : Signal) (o : Outcome Value Failure) :
    R.heard hooks signal (.settled o) = .settled o := by
  unfold heard
  split <;> rfl

theorem heard_of_mem {hooks : List Hook} (mem : Hook.reader R.reader ∈ hooks) (signal : Signal) (n : Nat) :
    R.heard hooks signal (.waiting n) = .settled (readOutcome R.size signal) := by
  rw [heard, if_pos mem]
  rfl

theorem heard_reader (r : Nat) (signal : Signal) (p : Progress) :
    R.heard [.reader r] signal p = if r = R.reader then p.settleWith (readOutcome R.size signal) else p := by
  by_cases own : r = R.reader
  · subst own
    simp [heard]
  · have other : Hook.reader R.reader ∉ [Hook.reader r] := by simpa using Ne.symm own
    rw [heard, if_neg other, if_neg own]

theorem heard_of_ne {hook : Hook} (other : hook ≠ .reader R.reader) (signal : Signal) (p : Progress) :
    R.heard [hook] signal p = p := by
  have absent : Hook.reader R.reader ∉ [hook] := by simpa using Ne.symm other
  rw [heard, if_neg absent]

theorem heard_cons (hook : Hook) (hooks : List Hook) (signal : Signal) (p : Progress) :
    R.heard (hook :: hooks) signal p = R.heard hooks signal (R.heard [hook] signal p) := by
  by_cases own : hook = .reader R.reader
  · subst own
    cases p <;> simp [heard, Progress.settleWith]
  · rw [heard_of_ne R own]
    have first : Hook.reader R.reader ∈ hook :: hooks ↔ Hook.reader R.reader ∈ hooks := by
      simpa using fun same : Hook.reader R.reader = hook => absurd same.symm own
    simp only [heard, first]

/-! ## What leaves a read where it is -/

namespace Frame

variable {R} {w : World} (frame : R.Frame w)
include frame

theorem congr {w' : World} (cells : w'.loop.cells = w.loop.cells) (jobs : w'.loop.jobs = w.loop.jobs)
    (readers : w'.readers = w.readers) (clients : w'.clients = w.clients) : R.Frame w' where
  jobs := jobs.trans frame.jobs
  quiet := by rw [cells]; exact frame.quiet
  readers := by rw [readers]; exact frame.readers
  clients := by rw [clients]; exact frame.clients

theorem modify_reader (i : Nat) {f : Reader → Reader} (keeps : ∀ x, (f x).cell = x.cell) :
    R.Frame { w with readers := w.readers.modify i f } := by
  refine { frame with readers := fun j rd found other => ?_ }
  rw [Array.getElem?_modify] at found
  split at found
  · obtain ⟨rd', found', rfl⟩ := Option.map_eq_some_iff.1 found
    rw [keeps]
    exact frame.readers j rd' found' other
  · exact frame.readers j rd found other

theorem modify_client (i : Nat) {f : Client → Client} (keeps : ∀ k, (f k).reply = k.reply) :
    R.Frame { w with clients := w.clients.modify i f } := by
  refine { frame with clients := fun j k found => ?_ }
  rw [Array.getElem?_modify] at found
  split at found
  · obtain ⟨k', found', rfl⟩ := Option.map_eq_some_iff.1 found
    rw [keeps]
    exact frame.clients j k' found'
  · exact frame.clients j k found

/-- Settling a cell keeps the frame: what waited on it was nothing. -/
theorem settle (c : CellId) (o : Outcome Value Failure) : R.Frame { w with loop := w.loop.settle c o } where
  jobs := (jobs_settle_of_quiet (frame.quiet c) o).trans frame.jobs
  quiet x ks found := frame.quiet x ks (pending_of_settle w.loop found)
  readers := frame.readers
  clients := frame.clients

theorem disarm (rd : Reader) : R.Frame { w with loop := rd.disarm w.loop } :=
  frame.congr (rd.cells_disarm w.loop) (rd.jobs_disarm w.loop) rfl rfl

theorem startTimer (delay : Nat) (k : Reaction) : R.Frame { w with loop := (w.loop.startTimer delay k).2 } :=
  frame.congr rfl rfl rfl rfl

theorem settle_read (i : Nat) (rd : Reader) (o : Outcome Value Failure) :
    R.Frame { w with readers := w.readers.modify i fun x => { x with settled := true },
                     loop := (rd.disarm w.loop).settle rd.cell o } :=
  ((frame.modify_reader i (f := fun x => { x with settled := true }) fun _ => rfl).disarm rd).settle rd.cell o

end Frame

namespace Waiting

variable {R} {armed : Bool} {n : Nat} {w : World} (now : R.Waiting armed n w)
include now

theorem timers_task : ∀ t ∈ w.loop.timers, t.task = .readTimedOut R.reader := by
  intro t mem
  rw [now.timers] at mem
  cases armed with
  | false => simp at mem
  | true =>
    obtain rfl : t = R.timer := by simpa using mem
    rfl

/-- A change that leaves the loop and the reads alone keeps the read
waiting. -/
theorem aside {w' : World} (frame : R.Frame w') (loop : w'.loop = w.loop) (readers : w'.readers = w.readers) :
    R.Waiting armed n w' where
  frame := frame
  cell := by rw [loop]; exact now.cell
  record := by rw [readers]; exact now.record
  clock := by rw [loop]; exact now.clock
  timers := by rw [loop]; exact now.timers
  others := by rw [readers]; exact now.others

/-- Settling another cell keeps the read waiting. -/
theorem settle {c : CellId} (other : c ≠ R.cell) (o : Outcome Value Failure) :
    R.Waiting armed n { w with loop := w.loop.settle c o } where
  frame := now.frame.settle c o
  cell := by rw [getElem?_settle_of_ne _ other]; exact now.cell
  record := now.record
  clock := by rw [clock_settle]; exact now.clock
  timers := by rw [timers_settle]; exact now.timers
  others := now.others

/-- Another read settling keeps the read waiting: that read's cell is
another, and so is its timer. -/
theorem settle_other {i : Nat} {rd : Reader} (found : w.readers[i]? = some rd) (other : i ≠ R.reader)
    (o : Outcome Value Failure) :
    R.Waiting armed n { w with readers := w.readers.modify i fun x => { x with settled := true },
                               loop := (rd.disarm w.loop).settle rd.cell o } where
  frame := now.frame.settle_read i rd o
  cell := by
    rw [getElem?_settle_of_ne _ (now.frame.readers i rd found other), Reader.cells_disarm]
    exact now.cell
  record := by rw [Array.getElem?_modify, if_neg other]; exact now.record
  clock := by simp [now.clock]
  timers := by
    rw [timers_settle]
    unfold Reader.disarm
    split
    · next t timer =>
      have another : R.timerId ≠ t := (now.others i rd t found other timer).symm
      simp only [Loop.cancelTimer, now.timers]
      cases armed <;> simp [RawRead.timer, another]
    · exact now.timers
  others j rd' t found' other' timer' := by
    rw [Array.getElem?_modify] at found'
    split at found'
    · obtain ⟨rd'', found'', rfl⟩ := Option.map_eq_some_iff.1 found'
      exact now.others j rd'' t found'' other' timer'
    · exact now.others j rd' t found' other' timer'

end Waiting

namespace Settled

variable {R} {o : Outcome Value Failure} {w : World} (now : R.Settled o w)
include now

/-- A change that leaves the loop and the reads alone keeps the read
settled. -/
theorem aside {w' : World} (frame : R.Frame w') (loop : w'.loop = w.loop) (readers : w'.readers = w.readers) :
    R.Settled o w' where
  frame := frame
  outcome := by rw [loop]; exact now.outcome
  record := by rw [readers]; exact now.record
  timers := by rw [loop]; exact now.timers

theorem settle {c : CellId} (other : c ≠ R.cell) (o' : Outcome Value Failure) :
    R.Settled o { w with loop := w.loop.settle c o' } where
  frame := now.frame.settle c o'
  outcome := by rw [outcome?_settle_of_ne _ other]; exact now.outcome
  record := now.record
  timers := by rw [timers_settle]; exact now.timers

theorem settle_other {i : Nat} {rd : Reader} (found : w.readers[i]? = some rd) (other : i ≠ R.reader)
    (o' : Outcome Value Failure) :
    R.Settled o { w with readers := w.readers.modify i fun x => { x with settled := true },
                         loop := (rd.disarm w.loop).settle rd.cell o' } where
  frame := now.frame.settle_read i rd o'
  outcome := by
    rw [outcome?_settle_of_ne _ (now.frame.readers i rd found other), Reader.outcome?_disarm]
    exact now.outcome
  record := by rw [Array.getElem?_modify, if_neg other]; exact now.record
  timers t mem := now.timers t (rd.mem_timers_disarm w.loop (by rwa [timers_settle] at mem))

end Settled

/-- A read's own listener settling it while its cell waits on nothing: the
read is settled, and every timer left is its own. -/
theorem settled_of_own {armed : Bool} {w : World} (frame : R.Frame w)
    (cell : w.loop.cells[R.cell]? = some (.pending [])) (record : w.readers[R.reader]? = some (R.record armed))
    (timers : ∀ t ∈ w.loop.timers, t.task = .readTimedOut R.reader) (o : Outcome Value Failure) :
    R.Settled o { w with readers := w.readers.modify R.reader fun x => { x with settled := true },
                         loop := ((R.record armed).disarm w.loop).settle R.cell o } where
  frame := frame.settle_read R.reader (R.record armed) o
  outcome := outcome?_settle _ (by rw [Reader.cells_disarm]; exact cell) o
  record rd found := by
    rw [Array.getElem?_modify, if_pos rfl, record] at found
    cases found
    rfl
  timers t mem := timers t ((R.record armed).mem_timers_disarm w.loop (by rwa [timers_settle] at mem))

namespace Now

variable {R} {armed : Bool} {p : Progress} {w : World} (now : R.Now armed p w)
include now

theorem frame : R.Frame w := by
  cases p with
  | waiting n => exact Waiting.frame now
  | settled o => exact Settled.frame now

theorem aside {w' : World} (frame : R.Frame w') (loop : w'.loop = w.loop) (readers : w'.readers = w.readers) :
    R.Now armed p w' := by
  cases p with
  | waiting n => exact Waiting.aside now frame loop readers
  | settled o => exact Settled.aside now frame loop readers

theorem settle {c : CellId} (other : c ≠ R.cell) (o : Outcome Value Failure) :
    R.Now armed p { w with loop := w.loop.settle c o } := by
  cases p with
  | waiting n => exact Waiting.settle now other o
  | settled o' => exact Settled.settle now other o

end Now

/-! ## Hearing -/

section Hearing

variable {armed : Bool}

/-- A read settling moves the read that is settled as `settleWith` says,
and leaves the others where they are. -/
theorem settleReader_spec (i : Nat) (o : Outcome Value Failure) (p : Progress) :
    Holds (R.Now armed p) (settleReader i o)
      fun _ => R.Now armed (if i = R.reader then p.settleWith o else p) := by
  intro w now
  rcases settleReader_run_cases i o w with ⟨idle, same⟩ | ⟨rd, found, unsettled, settled⟩
  · rw [same]
    by_cases own : i = R.reader
    · subst own
      rw [if_pos rfl]
      cases p with
      | waiting n => exact absurd (idle _ (Waiting.record now)) (by simp [record])
      | settled o' => exact now
    · rw [if_neg own]
      exact now
  · rw [settled]
    by_cases own : i = R.reader
    · subst own
      rw [if_pos rfl]
      cases p with
      | waiting n =>
        obtain rfl : rd = R.record armed := Option.some.inj (found.symm.trans (Waiting.record now))
        exact settled_of_own R (Waiting.frame now) (Waiting.cell now) (Waiting.record now)
          (Waiting.timers_task now) o
      | settled o' => exact absurd (Settled.record now rd found) (by simp [unsettled])
    · rw [if_neg own]
      cases p with
      | waiting n => exact Waiting.settle_other now found own o
      | settled o' => exact Settled.settle_other now found own o

/-- Whatever a listener hears moves the read as `heard` says: only the
read's own listener settles it. -/
theorem hear_spec (s : Nat) (hook : Hook) (signal : Signal) (p : Progress) :
    Holds (R.Now armed p) (hear s hook signal) fun _ => R.Now armed (R.heard [hook] signal p) := by
  cases hook with
  | reader r =>
    rw [heard_reader]
    cases signal with
    | data chunk =>
      refine Holds.bind Holds.get fun w => ?_
      rintro w' ⟨now, rfl⟩
      have heard := settleReader_spec R r
        (.fulfilled (.bytes (Bytes.upTo ((w.readers[r]?.map (·.bufferSize)).getD 0) chunk))) p w now
      by_cases own : r = R.reader
      · subst own
        cases p with
        | waiting n => simpa [Waiting.record now, record, readOutcome] using heard
        | settled o => exact heard
      · simpa [own] using heard
    | finished => exact settleReader_spec R r _ p
    | closed => exact settleReader_spec R r _ p
    | failed err => exact settleReader_spec R r _ p
  | tracker =>
    rw [heard_of_ne R (by simp)]
    cases signal with
    | closed => exact fun w now => now.aside (now.frame.congr rfl rfl rfl rfl) rfl rfl
    | _ => exact Holds.pure fun _ now => now
  | client c =>
    rw [heard_of_ne R (by simp)]
    cases signal with
    | data chunk => exact fun w now => now.aside (now.frame.modify_client c fun _ => rfl) rfl rfl
    | closed =>
      intro w now
      simp only [hear, bind_run, get_run]
      cases found : w.clients[c]? with
      | none => exact now
      | some k => exact now.settle (now.frame.clients c k found) _
    | _ => exact Holds.pure fun _ now => now
  | tap t =>
    rw [heard_of_ne R (by simp)]
    cases signal with
    | data chunk => exact fun w now => now.aside (now.frame.congr rfl rfl rfl rfl) rfl rfl
    | _ => exact Holds.pure fun _ now => now

theorem hearAll_spec (s : Nat) (hooks : List Hook) (signal : Signal) (p : Progress) :
    Holds (R.Now armed p) (hearAll s hooks signal) fun _ => R.Now armed (R.heard hooks signal p) := by
  induction hooks generalizing p with
  | nil =>
    have none : R.heard [] signal p = p := by simp [heard]
    rw [none]
    exact Holds.pure fun _ now => now
  | cons hook hooks ih =>
    show Holds _ (hear s hook signal >>= fun _ => hearAll s hooks signal) _
    rw [heard_cons]
    exact Holds.bind (hear_spec R s hook signal p) fun _ => ih _

end Hearing

theorem Holds.endpoint_found {α : Type} {P : World → Prop} {Q : α → World → Prop} {s : Nat}
    {e : Endpoint} {rest : Endpoint → Sim α} (found : ∀ w, P w → w.sockets[s]? = some e)
    (holds : Holds P (rest e) Q) : Holds P (endpoint s >>= rest) Q := by
  intro w pre
  have read : (endpoint s >>= rest).run w = (rest e).run w := by
    rw [bind_run, endpoint_run, found w pre]
    rfl
  rw [read]
  exact holds w pre

/-! ## Events on a settled read -/

section Settled

variable {o : Outcome Value Failure}

theorem modifyEndpoint_now {armed : Bool} {p : Progress} (s : Nat) (f : Endpoint → Endpoint) :
    Holds (R.Now armed p) (modifyEndpoint s f) fun _ => R.Now armed p :=
  Holds.modify fun _ now => now.aside (now.frame.congr rfl rfl rfl rfl) rfl rfl

theorem modifyEndpoint_settled (s : Nat) (f : Endpoint → Endpoint) :
    Holds (R.Settled o) (modifyEndpoint s f) fun _ => R.Settled o :=
  Holds.modify fun _ now => now.aside (now.frame.congr rfl rfl rfl rfl) rfl rfl

theorem hearAll_settled (s : Nat) (hooks : List Hook) (signal : Signal) :
    Holds (R.Settled o) (hearAll s hooks signal) fun _ => R.Settled o :=
  (@hearAll_spec R false s hooks signal (.settled o)).weaken fun _ _ now => by
    rwa [heard_settled] at now

theorem arrive_settled (s : Nat) (chunk : List UInt8) :
    Holds (R.Settled o) (arrive s chunk) fun _ => R.Settled o := by
  refine Holds.endpoint_bind s fun e => ?_
  split
  · exact Holds.pure fun _ now => now
  · split
    · exact R.modifyEndpoint_settled s _
    · exact R.hearAll_settled s _ _

theorem arriveEnd_settled (s : Nat) : Holds (R.Settled o) (arriveEnd s) fun _ => R.Settled o := by
  refine Holds.endpoint_bind s fun e => ?_
  split
  · exact Holds.pure fun _ now => now
  · exact Holds.bind (R.modifyEndpoint_settled s _) fun _ =>
      R.hearAll_settled s _ _

theorem closeOne_settled (s : Nat) : Holds (R.Settled o) (closeOne s) fun _ => R.Settled o := by
  refine Holds.endpoint_bind s fun e => ?_
  split
  · exact Holds.pure fun _ now => now
  · exact Holds.bind (R.modifyEndpoint_settled s _) fun _ =>
      R.hearAll_settled s _ _

theorem closeNow_settled (s : Nat) : Holds (R.Settled o) (closeNow s) fun _ => R.Settled o := by
  refine Holds.endpoint_bind s fun e => ?_
  split
  · exact Holds.pure fun _ now => now
  · exact Holds.bind (R.closeOne_settled s) fun _ => R.closeOne_settled _

theorem fail_settled (s : Nat) (err : Failure) : Holds (R.Settled o) (fail s err) fun _ => R.Settled o := by
  refine Holds.endpoint_bind s fun e => ?_
  split
  · exact Holds.pure fun _ now => now
  · exact Holds.bind (R.modifyEndpoint_settled s _) fun _ =>
      Holds.bind (R.hearAll_settled s _ _) fun _ => R.closeNow_settled s

end Settled

/-! ## Events on a waiting read -/

section Waiting

variable {n : Nat} {e : Endpoint} (listens : R.Listens e)
include listens

/-- The read waiting `n` units in, on its socket's endpoint `e`. -/
abbrev WaitingOn (n : Nat) (e : Endpoint) (w : World) : Prop :=
  R.Now R.timed (.waiting n) w ∧ w.sockets[R.socket]? = some e

theorem arrive_waiting (chunk : List UInt8) :
    Holds (R.WaitingOn n e) (arrive R.socket chunk) fun _ => R.Settled (readOutcome R.size (.data chunk)) := by
  refine Holds.endpoint_found (fun _ pre => pre.2) ?_
  split
  · next shut => exact absurd shut (by simp [listens.closed])
  · split
    · next empty => exact absurd empty (by simpa using List.ne_nil_of_mem listens.data)
    · exact ((R.hearAll_spec _ _ _ _).strengthen fun _ pre => pre.1).weaken fun _ _ now => by
        rwa [heard_of_mem R listens.data] at now

theorem arriveEnd_waiting :
    Holds (R.WaitingOn n e) (arriveEnd R.socket) fun _ => R.Settled (readOutcome R.size .finished) := by
  refine Holds.endpoint_found (fun _ pre => pre.2) ?_
  split
  · next shut => exact absurd shut (by simp [listens.closed, listens.ended])
  · refine Holds.bind ((R.modifyEndpoint_now _ _).strengthen fun _ pre => pre.1) fun _ => ?_
    exact (R.hearAll_spec _ _ _ _).weaken fun _ _ now => by rwa [heard_of_mem R listens.finished] at now

theorem closeOne_waiting :
    Holds (R.WaitingOn n e) (closeOne R.socket) fun _ => R.Settled (readOutcome R.size .closed) := by
  refine Holds.endpoint_found (fun _ pre => pre.2) ?_
  split
  · next shut => exact absurd shut (by simp [listens.closed])
  · refine Holds.bind ((R.modifyEndpoint_now _ _).strengthen fun _ pre => pre.1) fun _ => ?_
    exact (R.hearAll_spec _ _ _ _).weaken fun _ _ now => by rwa [heard_of_mem R listens.shut] at now

/-- A close settles a waiting read with no bytes; the peer's close after it
changes nothing. -/
theorem closeNow_waiting :
    Holds (R.WaitingOn n e) (closeNow R.socket) fun _ => R.Settled (readOutcome R.size .closed) := by
  refine Holds.endpoint_found (fun _ pre => pre.2) ?_
  split
  · next shut => exact absurd shut (by simp [listens.closed])
  · exact Holds.bind (R.closeOne_waiting listens) fun _ => R.closeOne_settled _

/-- An error settles a waiting read with a read failure naming it; the close
that follows changes nothing. -/
theorem fail_waiting (err : Failure) :
    Holds (R.WaitingOn n e) (fail R.socket err) fun _ => R.Settled (readOutcome R.size (.failed err)) := by
  refine Holds.endpoint_found (fun _ pre => pre.2) ?_
  split
  · next shut => exact absurd shut (by simp [listens.closed])
  · refine Holds.bind ((R.modifyEndpoint_now _ _).strengthen fun _ pre => pre.1) fun _ => ?_
    refine Holds.bind ((R.hearAll_spec _ _ _ _).weaken fun _ _ now => ?_) fun _ => R.closeNow_settled _
    rwa [heard_of_mem R listens.failed] at now

end Waiting

/-! ## Time passing -/

section Time

variable {R} {o : Outcome Value Failure} {w : World}

/-- A settled read stays settled whatever its loop becomes, as long as its
cells stay, nothing is queued and no timer is added. -/
theorem Settled.with_loop (now : R.Settled o w) {l : Loop Reaction Value Failure} (cells : l.cells = w.loop.cells)
    (jobs : l.jobs = []) (timers : ∀ t ∈ l.timers, t ∈ w.loop.timers) : R.Settled o { w with loop := l } where
  frame := now.frame.congr cells (jobs.trans now.frame.jobs.symm) rfl rfl
  outcome := by rw [← now.outcome]; simp only [Loop.outcome?, cells]
  record := now.record
  timers t mem := now.timers t (timers t mem)

/-- A timer of a settled read firing queues its timeout, which the settled
read ignores. -/
theorem Settled.fire (now : R.Settled o w) {limit : Nat} {l : Loop Reaction Value Failure}
    (fired : w.loop.fireDue? limit = some l) : R.Settled o ((settleAll).run { w with loop := l }).2 := by
  obtain ⟨t, mem, shape⟩ := fireDue?_eq_some w.loop fired
  have queued : l.jobs = [.task (.readTimedOut R.reader)] := by
    rw [shape]
    simp [now.frame.jobs, now.timers t mem]
  have popped : R.Settled o { w with loop := { l with jobs := [] } } :=
    now.with_loop (by rw [shape]) rfl fun t' mem' => by
      rw [shape] at mem'
      exact (List.mem_filter.1 mem').1
  have ignored : (runJob (.task (.readTimedOut R.reader))).run { w with loop := { l with jobs := [] } } =
      ((), { w with loop := { l with jobs := [] } }) :=
    readTimedOut_run_of_settled popped.record
  rw [settleAll_single queued (by rw [ignored]), ignored]
  exact popped

theorem fireWithin_settled (now : R.Settled o w) (limit k : Nat) :
    R.Settled o ((fireWithin limit k).run w).2 := by
  induction k generalizing w with
  | zero => exact now
  | succ k ih =>
    cases due : w.loop.fireDue? limit with
    | none =>
      rw [Session.Server.fireWithin_of_none due]
      exact now
    | some l =>
      rw [Session.Server.fireWithin_of_due due]
      exact ih (now.fire due)

/-- Setting the clock keeps a read settled; with nothing queued, settling
then does nothing. -/
theorem Settled.tick (now : R.Settled o w) (c : Nat) :
    R.Settled o ((settleAll).run { w with loop := { w.loop with clock := c } }).2 := by
  rw [settleAll, settleWithin_idle (w := { w with loop := { w.loop with clock := c } }) now.frame.jobs]
  exact now.with_loop rfl now.frame.jobs fun _ mem => mem

theorem advance_settled (now : R.Settled o w) (ms : Nat) : R.Settled o ((advance ms).run w).2 := by
  rw [advance_run_of_idle now.frame.jobs]
  exact (fireWithin_settled now _ _).tick _

namespace Waiting

variable {armed : Bool} {n : Nat} (now : R.Waiting armed n w)
include now

theorem fireDue_early {limit : Nat} (early : armed = true → limit < R.start + R.delay) :
    w.loop.fireDue? limit = none := by
  unfold Loop.fireDue?
  rw [now.timers]
  cases armed with
  | false => rfl
  | true => simp [Loop.earliest, RawRead.timer, Nat.not_le.2 (early rfl)]

theorem fireWithin_early {limit : Nat} (early : armed = true → limit < R.start + R.delay) (k : Nat) :
    ((fireWithin limit k).run w).2 = w := by
  cases k with
  | zero => rfl
  | succ k => exact Session.Server.fireWithin_of_none (now.fireDue_early early)

/-- Time passing before the delay leaves a read waiting, that much longer. -/
theorem tick (ms : Nat) : R.Waiting armed (n + ms) { w with loop := { w.loop with clock := w.loop.clock + ms } } where
  frame := now.frame.congr rfl rfl rfl rfl
  cell := now.cell
  record := now.record
  clock := by
    show w.loop.clock + ms = R.start + (n + ms)
    rw [now.clock, Nat.add_assoc]
  timers := now.timers
  others := now.others

end Waiting

/-- Once its delay is reached, the timer of a waiting read fires and times
the read out. -/
theorem Waiting.time_out {n : Nat} (now : R.Waiting true n w) {limit : Nat} (due : R.start + R.delay ≤ limit) :
    R.Settled (.rejected (Failure.readTimeout R.timeoutMs)) ((fireWithin limit timerBudget).run w).2 := by
  obtain ⟨l, fired⟩ : ∃ l, w.loop.fireDue? limit = some l := by
    unfold Loop.fireDue?
    rw [now.timers]
    simp [Loop.earliest, RawRead.timer, due]
  obtain ⟨t, mem, shape⟩ := fireDue?_eq_some w.loop fired
  rw [now.timers, if_pos rfl, List.mem_singleton] at mem
  subst mem
  have queued : l.jobs = [.task (.readTimedOut R.reader)] := by
    rw [shape]
    simp [now.frame.jobs, RawRead.timer]
  have frame : R.Frame { w with loop := { l with jobs := [] } } :=
    now.frame.congr (by rw [shape]) (by rw [now.frame.jobs]) rfl rfl
  have cell : ({ l with jobs := [] } : Loop Reaction Value Failure).cells[R.cell]? = some (.pending []) := by
    rw [shape]
    exact now.cell
  have timers : ∀ t ∈ ({ l with jobs := [] } : Loop Reaction Value Failure).timers,
      t.task = .readTimedOut R.reader := fun t mem => by
    rw [shape] at mem
    exact now.timers_task t (List.mem_filter.1 mem).1
  have settled := settled_of_own R frame cell now.record timers (.rejected (Failure.readTimeout R.timeoutMs))
  have timedOut : (runJob (.task (.readTimedOut R.reader))).run { w with loop := { l with jobs := [] } } =
      (settleReader R.reader (.rejected (Failure.readTimeout R.timeoutMs))).run
        { w with loop := { l with jobs := [] } } := by
    rw [show runJob (.task (.readTimedOut R.reader)) = readTimedOut R.reader from rfl, readTimedOut_run]
    rw [show ({ w with loop := { l with jobs := [] } } : World).readers = w.readers from rfl, now.record]
    rfl
  have runs := settleReader_run (w := { w with loop := { l with jobs := [] } })
    (.rejected (Failure.readTimeout R.timeoutMs)) now.record rfl
  have budget : timerBudget = 9999 + 1 := rfl
  rw [budget, Session.Server.fireWithin_of_due fired, settleAll_single queued (by rw [timedOut, runs]; exact settled.frame.jobs),
    timedOut, runs]
  exact fireWithin_settled settled limit 9999

/-- Time passing moves a waiting read one step: its timer fires once the
delay is reached, and otherwise the read waits on, that much longer, on the
same socket. -/
theorem advance_waiting {n : Nat} {e : Endpoint} (now : R.Waiting R.timed n w)
    (found : w.sockets[R.socket]? = some e) (listens : R.Listens e) (ms : Nat) :
    R.At (R.step (.waiting n) (.elapse ms)) ((advance ms).run w).2 := by
  rw [advance_run_of_idle now.frame.jobs]
  by_cases due : (R.timed && decide (R.delay ≤ n + ms)) = true
  · rw [step, if_pos due]
    obtain ⟨timed, reached⟩ : R.timed = true ∧ R.delay ≤ n + ms := by simpa using due
    have armed : R.Waiting true n w := timed ▸ now
    exact (armed.time_out (by rw [now.clock]; omega)).tick _
  · rw [step, if_neg due]
    have early : R.timed = true → w.loop.clock + ms < R.start + R.delay := fun timed => by
      have short : ¬ R.delay ≤ n + ms := by simpa [timed] using due
      rw [now.clock]
      omega
    rw [now.fireWithin_early early, settleAll,
      settleWithin_idle (w := { w with loop := { w.loop with clock := w.loop.clock + ms } }) now.frame.jobs]
    exact ⟨now.tick ms, e, found, listens⟩

end Time

/-! ## A run of events -/

section Run

variable {R}

/-- A world holding the read at a progress, with its timer armed if it
times out and its socket's endpoint one it listens on, holds it there. -/
theorem At.of_now {st : Progress} {w : World} {e : Endpoint} (now : R.Now R.timed st w)
    (found : w.sockets[R.socket]? = some e) (listens : R.Listens e) : R.At st w := by
  cases st with
  | waiting n => exact ⟨now, e, found, listens⟩
  | settled o => exact now

/-- Every event on the read's socket moves the read one step. -/
theorem At.apply {st : Progress} {w : World} (now : R.At st w) (ev : SocketEvent) :
    R.At (R.step st ev) (ev.apply R.socket w) := by
  cases st with
  | settled o =>
    have now : R.Settled o w := now
    cases ev with
    | data chunk => exact R.arrive_settled _ chunk w now
    | finished => exact R.arriveEnd_settled _ w now
    | closed => exact R.closeNow_settled _ w now
    | failed err => exact R.fail_settled _ err w now
    | elapse ms => exact advance_settled now ms
  | waiting n =>
    obtain ⟨now, e, found, listens⟩ := now
    cases ev with
    | data chunk => exact R.arrive_waiting listens chunk w ⟨now, found⟩
    | finished => exact R.arriveEnd_waiting listens w ⟨now, found⟩
    | closed => exact R.closeNow_waiting listens w ⟨now, found⟩
    | failed err => exact R.fail_waiting listens err w ⟨now, found⟩
    | elapse ms => exact advance_waiting now found listens ms

/-- A run of events moves the read along the fold of `step`: by induction
on the run, one event at a time. -/
theorem At.follow {st : Progress} {w : World} (now : R.At st w) (es : List SocketEvent) :
    R.At (es.foldl R.step st) (SocketEvent.run R.socket es w) := by
  induction es generalizing st w with
  | nil => exact now
  | cons ev es ih => exact ih (now.apply ev)

end Run

/-! ## Beginning a read -/

/-- How a read begins: settled with what its start decides, or waiting. -/
def Progress.ofStart : Option (Outcome Value Failure) → Progress
  | some o => .settled o
  | none => .waiting 0

theorem Progress.settleWith_ofStart (o : Outcome Value Failure) (decided : Option (Outcome Value Failure)) :
    (Progress.ofStart decided).settleWith o = .ofStart (decided.or (some o)) := by
  cases decided <;> rfl

/-- The read that `readRaw s size timeoutMs` begins in `w`. -/
def begun (w : World) (s : Nat) (size timeoutMs : Double) : RawRead where
  socket := s
  cell := w.loop.cells.size
  reader := w.readers.size
  size := size
  timeoutMs := timeoutMs
  start := w.loop.clock
  timerId := w.loop.nextTimer

/-- While a read begins: decided as `decided` says, with no timer armed,
its socket's endpoint `e`, and its timer's number not yet handed out. -/
structure Opening (decided : Option (Outcome Value Failure)) (e : Endpoint) (w : World) : Prop where
  now : R.Now false (.ofStart decided) w
  socket : w.sockets[R.socket]? = some e
  nextTimer : w.loop.nextTimer = R.timerId

namespace Opening

variable {R} {decided : Option (Outcome Value Failure)} {e : Endpoint}

theorem modifyEndpoint_spec (f : Endpoint → Endpoint) :
    Holds (R.Opening decided e) (modifyEndpoint R.socket f) fun _ => R.Opening decided (f e) :=
  Holds.modify fun w opening =>
    ⟨opening.now.aside (opening.now.frame.congr rfl rfl rfl rfl) rfl rfl,
      by simp [Array.getElem?_modify, opening.socket], opening.nextTimer⟩

theorem hear_own (chunk : List UInt8) :
    Holds (R.Opening decided e) (hear R.socket (.reader R.reader) (.data chunk))
      fun _ => R.Opening (decided.or (some (readOutcome R.size (.data chunk)))) e := by
  intro w opening
  have heard := R.hear_spec R.socket (.reader R.reader) (.data chunk) _ w opening.now
  rw [heard_reader, if_pos rfl, Progress.settleWith_ofStart] at heard
  have keeps : (((hear R.socket (.reader R.reader) (.data chunk)).run w).2.sockets,
      ((hear R.socket (.reader R.reader) (.data chunk)).run w).2.loop.nextTimer) =
      (w.sockets, w.loop.nextTimer) := by
    rw [hear_data_run]
    exact settleReader_sockets_nextTimer _ _ w
  obtain ⟨sockets, timer⟩ := Prod.mk.inj keeps
  exact ⟨heard, by rw [sockets]; exact opening.socket, by rw [timer]; exact opening.nextTimer⟩

theorem hearUnread_spec (chunks : List (List UInt8)) :
    ∀ decided : Option (Outcome Value Failure),
      Holds (R.Opening decided e) (chunks.forM fun chunk => hear R.socket (.reader R.reader) (.data chunk))
        fun _ => R.Opening (decided.or (chunks.head?.map fun chunk => readOutcome R.size (.data chunk))) e := by
  induction chunks with
  | nil =>
    intro decided
    rw [List.head?_nil, Option.map_none, Option.or_none]
    exact Holds.pure fun _ opening => opening
  | cons chunk chunks ih =>
    intro decided
    show Holds _ (hear R.socket (.reader R.reader) (.data chunk) >>= fun _ => chunks.forM _) _
    refine Holds.bind (hear_own chunk) fun _ => (ih _).weaken fun _ _ opening => ?_
    cases decided <;> simpa using opening

theorem listenData_spec :
    Holds (R.Opening decided e) (listenData R.socket (.reader R.reader))
      fun _ => R.Opening (decided.or (e.unread.head?.map fun chunk => readOutcome R.size (.data chunk)))
        { e with onData := e.onData ++ [.reader R.reader], unread := [] } := by
  refine Holds.endpoint_found (fun _ opening => opening.socket) ?_
  exact Holds.bind (modifyEndpoint_spec _) fun _ => hearUnread_spec e.unread decided

/-- Arming the timer of a read that times out: it gets the read's number,
and falls due the read's delay after the start. -/
theorem arm {w : World} (opening : R.Opening decided e w) :
    R.Now true (.ofStart decided)
      { w with loop := (w.loop.startTimer R.delay (.readTimedOut R.reader)).2,
               readers := w.readers.modify R.reader fun x => { x with timer := some R.timerId } } := by
  have frame := (opening.now.frame.startTimer R.delay (.readTimedOut R.reader)).modify_reader R.reader
    (f := fun x => { x with timer := some R.timerId }) fun _ => rfl
  cases decided with
  | none =>
    have now : R.Waiting false 0 w := opening.now
    refine ⟨frame, now.cell, ?_, now.clock, ?_, ?_⟩
    · rw [Array.getElem?_modify, if_pos rfl, now.record]
      rfl
    · show w.loop.timers ++ [⟨w.loop.nextTimer, w.loop.clock + R.delay, .readTimedOut R.reader⟩] = [R.timer]
      rw [now.timers, opening.nextTimer, now.clock]
      rfl
    · intro i rd t found other timer
      rw [Array.getElem?_modify, if_neg (Ne.symm other)] at found
      exact now.others i rd t found other timer
  | some o =>
    have now : R.Settled o w := opening.now
    refine ⟨frame, now.outcome, fun rd found => ?_, fun t mem => ?_⟩
    · rw [Array.getElem?_modify, if_pos rfl] at found
      obtain ⟨rd', found', rfl⟩ := Option.map_eq_some_iff.1 found
      exact now.record rd' found'
    · rcases List.mem_append.1 mem with mem | mem
      · exact now.timers t mem
      · rw [List.mem_singleton.1 mem]

end Opening

/-- An endpoint with a read's four listeners registered, its unread chunks
taken. -/
def listened (e : Endpoint) : Endpoint :=
  { e with onData := e.onData ++ [.reader R.reader], unread := [], onEnd := e.onEnd ++ [.reader R.reader],
           onClose := e.onClose ++ [.reader R.reader], onError := e.onError ++ [.reader R.reader] }

/-- What a read's start decides on an endpoint with no recorded error: the
first chunk that waited unread, else no bytes on a socket closed or
finished. -/
theorem atStart_of_clean {e : Endpoint} (clean : e.lastError = none) (size : Double) :
    atStart e size =
      if e.closed || e.ended then
        (e.unread.head?.map fun chunk => readOutcome size (.data chunk)).or (some (.fulfilled (.bytes [])))
      else e.unread.head?.map fun chunk => readOutcome size (.data chunk) := by
  unfold atStart
  rw [clean]
  cases unread : e.unread <;> cases shut : (e.closed || e.ended) <;> simp [readOutcome]

/-- A run of events from where a read's start left it: its outcome is what
the start decided, or else what the first deciding event gives. -/
theorem outcome_foldl_ofStart (decided : Option (Outcome Value Failure)) (es : List SocketEvent) :
    (es.foldl R.step (.ofStart decided)).outcome = decided.or (byEvents R.size R.timeoutMs 0 es) := by
  cases decided with
  | none => exact R.outcome_foldl_step 0 es
  | some o =>
    show (es.foldl R.step (.settled o)).outcome = some o
    rw [foldl_step_settled]
    rfl

section Calm

variable {w : World}

/-- A read that fails before it begins, in a calm world, is settled: its
new cell holds the failure, and it has no record and no timer. -/
theorem settled_of_failed (calm : Calm w) (s : Nat) (size timeoutMs : Double) (o : Outcome Value Failure) :
    (begun w s size timeoutMs).Settled o { w with loop := (w.loop.settledCell o).2 } where
  frame :=
    { jobs := calm.jobs
      quiet := fun c ks found => by
        simp only [Loop.settledCell, Array.getElem?_push] at found
        split at found
        · cases found
        · exact calm.quiet c ks found
      readers := fun i rd found _ => Nat.ne_of_lt (calm.readers i rd found)
      clients := fun i k found => Nat.ne_of_lt (calm.clients i k found) }
  outcome := by simp [Loop.outcome?, Loop.settledCell, begun]
  record rd found := by simp [begun] at found
  timers t mem := by simp [Loop.settledCell, calm.timers] at mem

/-- A read that begins in a calm world waits on its new cell with its new
record and no timer, and no other read's timer has the number its own will
get. -/
theorem waiting_of_calm (calm : Calm w)
    (issued : ∀ (i : Nat) (rd : Reader) (t : Nat), w.readers[i]? = some rd → rd.timer = some t → t < w.loop.nextTimer)
    (s : Nat) (size timeoutMs : Double) :
    (begun w s size timeoutMs).Waiting false 0
      { w with loop := w.loop.fresh.2, readers := w.readers.push ⟨w.loop.cells.size, size, timeoutMs, false, none⟩ } where
  frame :=
    { jobs := calm.jobs
      quiet := fun c ks found => by
        rw [getElem?_fresh] at found
        split at found
        · cases found
          rfl
        · exact calm.quiet c ks found
      readers := fun i rd found other => by
        rw [Array.getElem?_push, if_neg (show ¬ i = w.readers.size from other)] at found
        exact Nat.ne_of_lt (calm.readers i rd found)
      clients := fun i k found => Nat.ne_of_lt (calm.clients i k found) }
  cell := by simp [begun]
  record := Array.getElem?_push_size
  clock := rfl
  timers := calm.timers
  others i rd t found other timer := by
    rw [Array.getElem?_push, if_neg (show ¬ i = w.readers.size from other)] at found
    exact Nat.ne_of_lt (issued i rd t found timer)

/-- Beginning a read in a calm world, on a socket that exists: the read's
cell is the one returned, and the read is held where its start decides. -/
theorem readRaw_at (calm : Calm w)
    (issued : ∀ (i : Nat) (rd : Reader) (t : Nat), w.readers[i]? = some rd → rd.timer = some t → t < w.loop.nextTimer)
    {s : Nat} {e : Endpoint} (found : w.sockets[s]? = some e) (size timeoutMs : Double) :
    ((readRaw s size timeoutMs).run w).1 = (begun w s size timeoutMs).cell ∧
      (begun w s size timeoutMs).At (.ofStart (atStart e size)) ((readRaw s size timeoutMs).run w).2 := by
  let R := begun w s size timeoutMs
  suffices holds : Holds (fun w' => w' = w) (readRaw s size timeoutMs)
      fun c w' => c = R.cell ∧ R.At (.ofStart (atStart e size)) w' from holds w rfl
  unfold readRaw
  refine Holds.endpoint_found (fun _ same => same ▸ found) ?_
  split
  · next err failed =>
    rintro _ rfl
    have decided : atStart e size = some (.rejected (Failure.readFailed err)) := by simp [atStart, failed]
    rw [decided]
    exact ⟨rfl, settled_of_failed calm s size timeoutMs _⟩
  · next clean =>
    have clean : e.lastError = none := Option.eq_none_iff_forall_ne_some.2 clean
    refine Holds.bind (Q := fun c w' => c = R.cell ∧ w' = { w with loop := w.loop.fresh.2 })
      (fun _ same => by subst same; exact ⟨rfl, rfl⟩) fun c => Holds.of_prop fun cell => ?_
    subst cell
    refine Holds.bind (Q := fun r w' => r = R.reader ∧ R.Opening none e w')
      (Holds.modifyGet fun _ same => by
        subst same
        exact ⟨rfl, waiting_of_calm calm issued s size timeoutMs, found, rfl⟩)
      fun r => Holds.of_prop fun reader => ?_
    subst reader
    refine Holds.bind Opening.listenData_spec fun _ => ?_
    refine Holds.bind (Opening.modifyEndpoint_spec _) fun _ => ?_
    refine Holds.bind (Opening.modifyEndpoint_spec _) fun _ => ?_
    refine Holds.bind (Opening.modifyEndpoint_spec _) fun _ => ?_
    refine Holds.endpoint_found (e := R.listened e) (fun _ opening => opening.socket) ?_
    rw [atStart_of_clean clean, Option.none_or]
    split
    · next shut =>
      have shut : (e.closed || e.ended) = true := shut
      rw [if_pos shut]
      refine Holds.bind ((R.settleReader_spec R.reader (.fulfilled (.bytes [])) _).strengthen
        fun _ opening => opening.now) fun _ => Holds.pure fun w' now => ⟨rfl, ?_⟩
      rw [if_pos rfl, Progress.settleWith_ofStart] at now
      cases unread : e.unread <;> simp only [unread, List.head?_nil, List.head?_cons, Option.map_none,
        Option.map_some, Option.none_or, Option.some_or] at now ⊢ <;> exact now
    · next live =>
      have live : (e.closed || e.ended) = false := by simpa [listened] using live
      rw [if_neg (show ¬ (e.closed || e.ended) = true by simp [live])]
      have listens : R.Listens (R.listened e) := by
        simp only [Bool.or_eq_false_iff] at live
        exact ⟨live.1, live.2, by simp [listened], by simp [listened], by simp [listened], by simp [listened]⟩
      split
      · next timed =>
        have timed : R.timed = true := timed
        refine Holds.bind (Q := fun t w' => ∃ w₀, R.Opening (e.unread.head?.map fun chunk =>
            readOutcome R.size (.data chunk)) (R.listened e) w₀ ∧ t = R.timerId ∧
            w' = { w₀ with loop := (w₀.loop.startTimer R.delay (.readTimedOut R.reader)).2 })
          (Holds.modifyGet fun w₀ opening => ⟨w₀, opening, opening.nextTimer, rfl⟩) fun t => ?_
        refine Holds.bind (Q := fun _ w' => R.Now true (.ofStart (e.unread.head?.map fun chunk =>
            readOutcome R.size (.data chunk))) w' ∧ w'.sockets[R.socket]? = some (R.listened e))
          (Holds.modify fun w' ⟨w₀, opening, number, same⟩ => ?_) fun _ =>
          Holds.pure fun w' now => ⟨rfl, At.of_now (timed ▸ now.1) now.2 listens⟩
        subst number same
        exact ⟨opening.arm, opening.socket⟩
      · next untimed =>
        have untimed : R.timed = false := Bool.eq_false_iff.2 untimed
        exact Holds.pure fun w' opening => ⟨rfl, At.of_now (untimed ▸ opening.now) opening.socket listens⟩

end Calm

end RawRead

/-! ## Reading a request's raw bytes -/

/-- A raw read begun in a calm world, on a socket that exists, whatever the
state of the socket and whatever happens on it after: the read's cell holds
the outcome the read's start decides, or else the one the first deciding
event gives, and none while nothing has decided; once it holds an outcome,
no later event changes it. -/
theorem raw_read_settles_by_first_event (w : World) (calm : Calm w)
    (issued : ∀ (i : Nat) (rd : Reader) (t : Nat), w.readers[i]? = some rd → rd.timer = some t → t < w.loop.nextTimer)
    (s : Nat) (inside : s < w.sockets.size) (size timeoutMs : Double) (es more : List SocketEvent) :
    let begun := (readRaw s size timeoutMs).run w
    (SocketEvent.run s es begun.2).loop.outcome? begun.1 =
        (RawRead.atStart w.sockets[s] size).or (RawRead.byEvents size timeoutMs 0 es) ∧
      ∀ o, (SocketEvent.run s es begun.2).loop.outcome? begun.1 = some o →
        (SocketEvent.run s (es ++ more) begun.2).loop.outcome? begun.1 = some o := by
  intro begun
  obtain ⟨cell, start⟩ := RawRead.readRaw_at calm issued (Array.getElem?_eq_getElem inside) size timeoutMs
  have decided : ∀ es, (SocketEvent.run s es begun.2).loop.outcome? begun.1 =
      (RawRead.atStart w.sockets[s] size).or (RawRead.byEvents size timeoutMs 0 es) := by
    intro es
    have held := (start.follow es).outcome_eq
    rw [RawRead.outcome_foldl_ofStart] at held
    rw [show begun.1 = _ from cell]
    exact held
  refine ⟨decided es, fun o held => ?_⟩
  rw [decided] at held ⊢
  cases atStart : RawRead.atStart w.sockets[s] size with
  | some o' => simpa [atStart] using held
  | none =>
    simp only [atStart, Option.none_or] at held ⊢
    exact RawRead.byEvents_append held more

/-- A read begun on a fresh connection, on which two bytes arrive and the
peer then closes: the bytes settle the read, and the close changes nothing. -/
theorem raw_read_settles_by_first_event_on_data :
    let w₀ : World := { sockets := #[{ peer := 1 }, { peer := 0 }] }
    let begun := (readRaw 1 1024 0).run w₀
    (SocketEvent.run 1 [.data [104, 105], .closed] begun.2).loop.outcome? begun.1 =
      some (.fulfilled (.bytes (Bytes.upTo 1024 [104, 105]))) := by
  intro w₀ begun
  have calm : Calm w₀ := ⟨rfl, rfl, by simp [w₀], by simp [w₀], by simp [w₀]⟩
  rw [(raw_read_settles_by_first_event w₀ calm (by simp [w₀]) 1 (by decide) 1024 0
    [.data [104, 105], .closed] []).1]
  rfl

end Machine
end HttpStub
