import HttpStub.Proofs.Handling.Outside

/-!
# The handler's own jobs

Every stage of a handler but the first and the last has one job queued,
which resumes the handler's code where it waited.  Run, that job settles
the cell the next stage waits on: reading the request settles with the
request, serving with a failure, a dismissal or a response on its way,
writing with how the send went, responding after the response was logged
and reported, and handling after a failure was reported and the close
queued.

The code a job runs makes cells, attaches reactions, queues jobs and
records notices, one primitive at a time.  `Handler.Building` follows such
code: the frame holds, the cells from the handler's first on are as a list
expects, and the queue and the notices are given exactly.  Each primitive
has a triple over it, the code of each stage is taken apart along its
`do` blocks into these, and `At.advance` turns what a stage's code leaves
into the next stage.
-/

namespace HttpStub

namespace Async
namespace Loop

variable {κ υ ε : Type} (l : Loop κ υ ε)

theorem getElem?_onSettled_of_ne {c x : CellId} (other : c ≠ x) (k : κ) :
    (l.onSettled c k).cells[x]? = l.cells[x]? := by
  unfold onSettled
  split <;> simp [Array.getElem?_modify, other]

end Loop
end Async

namespace Machine

open Async Loop

theorem writable_run (s : Nat) (w : World) : (writable s).run w =
    (!(w.sockets[s]?.getD {}).closed && !(w.sockets[s]?.getD {}).writeEnded &&
      !(w.sockets[(w.sockets[s]?.getD {}).peer]?.getD {}).closed, w) := rfl

/-- How a send went: it failed and queued nothing, or it succeeded and
queued the chunk's delivery. -/
def Sent (chunk : List UInt8) (sent : Outcome Value Failure) (lead : List (Job Reaction Value Failure)) :
    Prop :=
  (lead = [] ∧ ∃ f, sent = .rejected f) ∨ (∃ e, lead = [.task (.deliver e chunk)]) ∧ sent = .fulfilled .unit

namespace Sent

variable {sent : Outcome Value Failure} {ahead : List (Job Reaction Value Failure)}

theorem lead {H : Handler} {path : String} {r : Response} {summary : String}
    (shape : Sent r.serialize sent ahead) : H.Lead (.sending path r summary sent) ahead :=
  shape.imp (fun failed => failed.1) fun went => ⟨went.1, _, went.2⟩

theorem wires {fault : Option String} {path : String} {r : Response} {summary : String}
    (shape : Sent r.serialize sent ahead) :
    ahead.filterMap Job.wire = (Handled.ofSend fault path r summary sent).sent.map .write := by
  rcases shape with ⟨rfl, f, rfl⟩ | ⟨⟨e, rfl⟩, rfl⟩
  · rfl
  · cases fault <;> rfl

end Sent

/-- Writing and waiting makes one settled cell: the chunk goes out to the
peer and the cell holds success, or nothing goes out. -/
theorem sendAndWait_run (s : Nat) (chunk : List UInt8) (w : World) :
    ∃ sent lead, Sent chunk sent lead ∧
      (sendAndWait s chunk).run w =
        (w.loop.cells.size, { w with loop := ({ w.loop with jobs := w.loop.jobs ++ lead }.settledCell sent).2 }) := by
  unfold sendAndWait
  simp only [bind_run, endpoint_run]
  split
  · exact ⟨_, [], Or.inl ⟨rfl, _, rfl⟩, by simp; rfl⟩
  · rw [bind_run, writable_run]
    split
    · next ok =>
      refine ⟨.fulfilled .unit, [.task (.deliver (w.sockets[s]?.getD {}).peer chunk)],
        Or.inr ⟨⟨_, rfl⟩, rfl⟩, ?_⟩
      simp only [send, bind_run, writable_run, ok]
      rfl
    · exact ⟨_, [], Or.inl ⟨rfl, _, rfl⟩, by simp; rfl⟩

namespace Holds

variable {α β : Type} {P : World → Prop} {f : Sim α} {Q : α → World → Prop}

theorem of_prop {p : Prop} (holds : p → Holds P f Q) : Holds (fun w => p ∧ P w) f Q :=
  fun w pre => holds pre.1 w pre.2

theorem of_exists {R : β → World → Prop} (holds : ∀ b, Holds (R b) f Q) :
    Holds (fun w => ∃ b, R b w) f Q :=
  fun w ⟨b, pre⟩ => holds b w pre

end Holds

namespace Handler

variable {H : Handler}

namespace Frame

variable {w : World} (frame : H.Frame w)
include frame

/-- A new cell keeps the frame. -/
theorem push {l : Loop Reaction Value Failure} {c : Cell Reaction Value Failure}
    (above : H.base ≤ w.loop.cells.size) (cells : l.cells = w.loop.cells.push c)
    (timers : l.timers = w.loop.timers) : H.Frame { w with loop := l } :=
  frame.with_loop (fun x below => by rw [cells, Array.getElem?_push, if_neg (by omega)])
    (by rw [timers]; exact fun _ mem => mem)

/-- Attaching a reaction to one of the handler's cells keeps the frame. -/
theorem onSettled {c : Nat} (above : H.base ≤ c) (k : Reaction) :
    H.Frame { w with loop := w.loop.onSettled c k } :=
  frame.with_loop (fun _ below => getElem?_onSettled_of_ne w.loop (Nat.ne_of_gt (Nat.lt_of_lt_of_le below above)) k)
    (by simp)

/-- Queueing a task keeps the frame. -/
theorem defer (k : Reaction) : H.Frame { w with loop := w.loop.defer k } :=
  frame.with_loop (fun _ _ => rfl) fun _ mem => mem

theorem quiet_eq : (w.server.map (·.config.quiet)).getD false = H.config.quiet := by
  obtain ⟨srv, found, config, -⟩ := frame.server
  simp [found, config]

theorem fault_eq : w.server.bind (·.responseFault) = H.fault := by
  obtain ⟨srv, found, -, -, fault⟩ := frame.server
  simp [found, fault]

end Frame

/-- While the handler's code runs: the frame holds, the reads are `rs`, the
cells from the handler's first on are as `es` expects, the queue is `js`
and the notices are `ns`. -/
structure Building (H : Handler) (rs : Array Reader) (es : List (Expect Reaction Value Failure))
    (js : List (Job Reaction Value Failure)) (ns : List Notice) (w : World) : Prop where
  frame : H.Frame w
  readers : w.readers = rs
  cells : w.loop.Matches H.base es
  jobs : w.loop.jobs = js
  notices : w.notices.toList = ns

namespace Building

variable {rs : Array Reader} {es : List (Expect Reaction Value Failure)}
  {js : List (Job Reaction Value Failure)} {ns : List Notice}

theorem fresh_spec :
    Holds (H.Building rs es js ns) fresh
      fun c w => c = H.base + es.length ∧ H.Building rs (es ++ [.waits []]) js ns w := by
  intro w built
  have size := built.cells.1
  rw [fresh_run]
  exact ⟨size, built.frame.push (by omega) rfl rfl, built.readers, built.cells.fresh.2, built.jobs,
    built.notices⟩

theorem settledCell_spec (o : Outcome Value Failure) :
    Holds (H.Building rs es js ns) (settledCell o)
      fun c w => c = H.base + es.length ∧ H.Building rs (es ++ [.holds o]) js ns w := by
  intro w built
  have size := built.cells.1
  rw [settledCell_run]
  exact ⟨size, built.frame.push (by omega) rfl rfl, built.readers, (built.cells.settledCell o).2,
    built.jobs, built.notices⟩

theorem onSettled_waits_spec (i : Nat) (ks : List Reaction) (waits : es[i]? = some (.waits ks))
    (k : Reaction) :
    Holds (H.Building rs es js ns) (onSettled (H.base + i) k)
      fun _ => H.Building rs (es.set i (.waits (ks ++ [k]))) js ns := by
  intro w built
  obtain ⟨cells, jobs⟩ := built.cells.onSettled_waits waits k
  rw [onSettled_run]
  exact ⟨built.frame.onSettled (by omega) k, built.readers, cells, by rw [jobs, built.jobs], built.notices⟩

theorem onSettled_holds_spec (i : Nat) (o : Outcome Value Failure) (holds : es[i]? = some (.holds o))
    (k : Reaction) :
    Holds (H.Building rs es js ns) (onSettled (H.base + i) k)
      fun _ => H.Building rs es (js ++ [.resume k o]) ns := by
  intro w built
  have queued := built.cells.onSettled_holds holds k
  rw [onSettled_run]
  exact ⟨built.frame.onSettled (by omega) k, built.readers, built.cells.of_cells (by rw [queued]),
    by rw [queued, built.jobs], built.notices⟩

theorem settle_spec (i : Nat) (ks : List Reaction) (waits : es[i]? = some (.waits ks))
    (o : Outcome Value Failure) :
    Holds (H.Building rs es js ns) (settle (H.base + i) o)
      fun _ => H.Building rs (es.set i (.holds o)) (js ++ ks.map (Job.resume · o)) ns := by
  intro w built
  obtain ⟨cells, jobs⟩ := built.cells.settle_waits waits o
  rw [settle_run]
  exact ⟨built.frame.settle _ o, built.readers, cells, by rw [jobs, built.jobs], built.notices⟩

theorem defer_spec (k : Reaction) :
    Holds (H.Building rs es js ns) (defer k) fun _ => H.Building rs es (js ++ [.task k]) ns := by
  intro w built
  rw [defer_run]
  exact ⟨built.frame.defer k, built.readers, built.cells.of_cells rfl, by simp [built.jobs], built.notices⟩

theorem note_spec (n : Notice) :
    Holds (H.Building rs es js ns) (note n) fun _ => H.Building rs es js (ns ++ [n]) := by
  intro w built
  rw [note_run]
  exact ⟨built.frame.congr rfl rfl rfl rfl, built.readers, built.cells, built.jobs,
    by simp [built.notices]⟩

theorem log_spec (level : LogLevel) (message : String) :
    Holds (H.Building rs es js ns) (log level message)
      fun _ => H.Building rs es js (ns ++ [.log level message []]) :=
  note_spec _

/-- The same world, with the cells, the queue and the notices written
another way. -/
theorem congr {w : World} (built : H.Building rs es js ns w) {es' : List (Expect Reaction Value Failure)}
    {js' : List (Job Reaction Value Failure)} {ns' : List Notice} (cells : es = es') (jobs : js = js')
    (notices : ns = ns') : H.Building rs es' js' ns' w :=
  cells ▸ jobs ▸ notices ▸ built

/-- A cell expected to hold an outcome has settled. -/
theorem spend {w : World} (built : H.Building rs es js ns w) (i : Nat) {o : Outcome Value Failure}
    (holds : es[i]? = some (.holds o)) : H.Building rs (es.set i .spent) js ns w :=
  { built with cells := built.cells.spend holds }

/-- Writing and waiting: the new cell holds how the send went, and the write
is queued when it went out. -/
theorem sendAndWait_spec (s : Nat) (chunk : List UInt8) :
    Holds (H.Building rs es js ns) (sendAndWait s chunk) fun c w =>
      c = H.base + es.length ∧ ∃ sent lead, Sent chunk sent lead ∧
        H.Building rs (es ++ [.holds sent]) (js ++ lead) ns w := by
  intro w built
  obtain ⟨sent, lead, shape, run⟩ := sendAndWait_run s chunk w
  have queued : H.Building rs es (js ++ lead) ns { w with loop := { w.loop with jobs := w.loop.jobs ++ lead } } :=
    ⟨built.frame.with_loop (fun _ _ => rfl) fun _ mem => mem, built.readers, built.cells.of_cells rfl,
      by rw [built.jobs], built.notices⟩
  obtain ⟨-, sentCell⟩ := settledCell_spec sent _ queued
  rw [run]
  exact ⟨built.cells.1, sent, lead, shape, sentCell⟩

/-- Writing a response: a new cell for the write, which waits on the send's
cell, and the send. -/
theorem writeResponse_spec (s : Nat) (r : Response) :
    Holds (H.Building rs es js ns) (writeResponse s r) fun o w =>
      o = H.base + es.length ∧ ∃ sent lead, Sent r.serialize sent lead ∧
        H.Building rs (es ++ [.waits [], .holds sent])
          (js ++ lead ++ [.resume (.writeSent (H.base + es.length)) sent]) ns w := by
  refine Holds.bind fresh_spec fun o => Holds.of_prop fun own => ?_
  subst own
  refine Holds.bind (sendAndWait_spec s _) fun x => Holds.of_prop fun sentCell => ?_
  subst sentCell
  refine Holds.of_exists fun sent => Holds.of_exists fun lead => Holds.of_prop fun shape => ?_
  refine Holds.bind (onSettled_holds_spec _ sent (by simp) _) fun _ =>
    Holds.pure fun w built => ⟨rfl, sent, lead, shape, built.congr (by simp) rfl rfl⟩

/-- Responding: a new cell for the response, which waits on the write's
cell, and the write. -/
theorem respond_spec (s : Nat) (path : String) (r : Response) (summary : String) :
    Holds (H.Building rs es js ns) (respond s path r summary) fun p w =>
      p = H.base + es.length ∧ ∃ sent lead, Sent r.serialize sent lead ∧
        H.Building rs (es ++ [.waits [], .waits [.respondWritten s path r.status summary (H.base + es.length)],
            .holds sent])
          (js ++ lead ++ [.resume (.writeSent (H.base + es.length + 1)) sent]) ns w := by
  refine Holds.bind fresh_spec fun p => Holds.of_prop fun own => ?_
  subst own
  refine Holds.bind (writeResponse_spec s r) fun o => Holds.of_prop fun written => ?_
  subst written
  refine Holds.of_exists fun sent => Holds.of_exists fun lead => Holds.of_prop fun shape => ?_
  refine Holds.bind (onSettled_waits_spec _ [] (by simp) _) fun _ =>
    Holds.pure fun w built => ⟨rfl, sent, lead, shape, built.congr (by simp) (by simp [Nat.add_assoc]) rfl⟩

end Building

/-- The handler at stage `st'` after the job of stage `st` ran: the write or
close `lead` is queued ahead of the stage's job after the jobs `js` that were
there, the notices `extra` are recorded after `ns`, and the writes and
closes queued are the new stage's. -/
def Moved (st : Stage) (rs : Array Reader) (js : List (Job Reaction Value Failure)) (ns : List Notice)
    (w : World) : Prop :=
  ∃ st' lead extra, st' ≠ .reading ∧ H.Lead st' lead ∧ st'.Valid ∧
    st.added H.config.quiet ++ extra = st'.added H.config.quiet ∧
    H.wires st ++ lead.filterMap Job.wire = H.wires st' ∧
    H.Building rs (H.cells st') (js ++ (lead ++ H.next st')) (ns ++ extra) w

@[simp] theorem lead_nil (st : Stage) : H.Lead st [] := by
  cases st <;> simp [Lead]

@[simp] theorem filterMap_wire_next (st : Stage) : (H.next st).filterMap Job.wire = [] := by
  cases st <;> simp [next]

theorem filter_lead_next {st : Stage} {lead : List (Job Reaction Value Failure)}
    (leadAt : H.Lead st lead) : (lead ++ H.next st).filter (fun j => !H.stray j) = lead ++ H.next st := by
  refine List.filter_eq_self.2 fun j mem => ?_
  rcases List.mem_append.1 mem with mem | mem
  · cases st <;> simp only [Lead] at leadAt
    case sending => rcases leadAt with rfl | ⟨⟨e, rfl⟩, -⟩ <;> simp_all [stray]
    case done => rcases leadAt with rfl | rfl <;> simp_all [stray]
    all_goals simp_all
  · cases st <;> simp_all [next]

theorem ReaderAt.of_done {w : World} {st : Stage} (other : st ≠ .reading) (done : H.ReadDone w) :
    H.ReaderAt w st := by
  cases st
  case reading => exact absurd rfl other
  all_goals exact done

namespace Moved

variable {rs : Array Reader} {js : List (Job Reaction Value Failure)} {ns : List Notice} {w : World}
  {st : Stage}

/-- A stage's job that queues nothing ahead of the next stage's job and
records nothing. -/
theorem plain (st' : Stage) (other : st' ≠ .reading) (valid : st'.Valid)
    (added : st.added H.config.quiet = st'.added H.config.quiet) (wires : H.wires st = H.wires st')
    (built : H.Building rs (H.cells st') (js ++ H.next st') ns w) : H.Moved st rs js ns w :=
  ⟨st', [], [], other, lead_nil st', valid, by simpa using added, by simpa using wires,
    built.congr rfl rfl (List.append_nil ns).symm⟩

end Moved

section Jobs

variable {rs : Array Reader} {js : List (Job Reaction Value Failure)} {ns : List Notice}

open Building

/-- Reading the request resumes with the raw read and settles with the
request the bytes hold, or with the read's failure. -/
theorem requestRead_spec {o : Outcome Value Failure} (valid : o.IsRead) :
    Holds (H.Building rs (H.cells (.read o)) js ns) (requestRead (H.base + 2) o)
      fun _ => H.Moved (.read o) rs js ns := by
  cases o with
  | fulfilled v =>
    obtain ⟨b, rfl⟩ := valid
    exact (settle_spec 2 [H.serving] rfl _).weaken fun _ _ built =>
      Moved.plain (.parsed (.fulfilled (.request (Request.parse? b)))) (by simp) ⟨_, rfl⟩ rfl rfl
        (built.spend 3 rfl)
  | rejected f =>
    exact (settle_spec 2 [H.serving] rfl _).weaken fun _ _ built =>
      Moved.plain (.parsed (.rejected f)) (by simp) valid rfl rfl (built.spend 3 rfl)

/-- Serving resumes with the request: a failed read is passed on, an empty
request may be dismissed, and any other gets its response written. -/
theorem serveRead_spec {o : Outcome Value Failure} (valid : o.IsRequest) :
    Holds (H.Building rs (H.cells (.parsed o)) js ns) (serveRead H.socket (H.base + 1) o)
      fun _ => H.Moved (.parsed o) rs js ns := by
  cases o with
  | rejected f =>
    exact (settle_spec 1 [H.finishing] rfl _).weaken fun _ _ built =>
      Moved.plain (.served (.unread f)) (by simp) valid rfl rfl (built.spend 2 rfl)
  | fulfilled v =>
    obtain ⟨req, rfl⟩ := valid
    refine Holds.bind Holds.get fun d => Holds.intro fun w ⟨built, same⟩ => ?_
    subst same
    obtain ⟨srv, found, config, table, -⟩ := built.frame.server
    refine Holds.strengthen ?_ fun _ same => same ▸ built
    simp only [found]
    split
    · refine Holds.bind (log_spec _ _) fun _ => (settle_spec 1 [H.finishing] rfl _).weaken fun _ _ built =>
        ⟨.served .dismissed, [], [_], by simp, lead_nil _, trivial, rfl, rfl, (built.spend 2 rfl).congr rfl rfl rfl⟩
    · refine Holds.bind (respond_spec _ _ _ _) fun p => Holds.of_prop fun own => ?_
      subst own
      refine Holds.of_exists fun sent => Holds.of_exists fun lead => Holds.of_prop fun shape => ?_
      exact (onSettled_waits_spec 4 [] rfl _).weaken fun _ _ built =>
        ⟨.sending _ _ _ sent, lead, [], by simp, shape.lead, trivial, rfl, shape.wires,
          (built.spend 2 rfl).congr rfl (by simp [next, writing, cells]) (by simp)⟩

theorem writeSent_spec {path : String} {r : Response} {summary : String} {sent : Outcome Value Failure} :
    Holds (H.Building rs (H.cells (.sending path r summary sent)) js ns) (writeSent (H.base + 5) sent)
      fun _ => H.Moved (.sending path r summary sent) rs js ns := by
  cases sent with
  | fulfilled v =>
    exact (settle_spec 5 [H.reporting path r summary] rfl _).weaken fun _ _ built =>
      Moved.plain (.written path r summary (.fulfilled v)) (by simp) trivial rfl rfl (built.spend 6 rfl)
  | rejected err =>
    exact (settle_spec 5 [H.reporting path r summary] rfl _).weaken fun _ _ built =>
      Moved.plain (.written path r summary (.rejected err)) (by simp) trivial rfl rfl (built.spend 6 rfl)

/-- Responding resumes with how the write went: a response that went out is
logged, unless quiet, and reported, and settles with what a listener of the
report threw. -/
theorem respondWritten_spec {path : String} {r : Response} {summary : String}
    {sent : Outcome Value Failure} :
    Holds (H.Building rs (H.cells (.written path r summary sent)) js ns)
      (respondWritten path r.status summary (H.base + 4) sent.ofSend)
      fun _ => H.Moved (.written path r summary sent) rs js ns := by
  cases sent with
  | rejected err =>
    exact (settle_spec 4 [H.closing] rfl _).weaken fun _ _ built =>
      Moved.plain (.responded path r summary (.rejected err)) (by simp) trivial rfl rfl (built.spend 5 rfl)
  | fulfilled v =>
    have told : H.fault.elim (.fulfilled .unit) (fun m => .rejected (Failure.plain m)) =
        (Handled.ofSend H.fault path r summary (.fulfilled v)).outcome := by
      cases H.fault <;> rfl
    refine Holds.bind Holds.get fun d => Holds.intro fun w ⟨built, same⟩ => ?_
    subst same
    refine Holds.strengthen ?_ fun _ same => same ▸ built
    simp only [built.frame.quiet_eq, built.frame.fault_eq, told]
    split
    · next loud =>
      refine Holds.bind (log_spec _ _) fun _ => Holds.bind (note_spec _) fun _ =>
        (settle_spec 4 [H.closing] rfl _).weaken fun _ _ built =>
          ⟨.responded path r summary (.fulfilled v), [], [_, _], by simp, lead_nil _, trivial, ?_,
            List.append_nil _, (built.spend 5 rfl).congr rfl rfl (List.append_assoc _ _ _)⟩
      simp at loud
      simp [Stage.added, Handled.told, loud]
    · next quiet =>
      refine Holds.bind (note_spec _) fun _ => (settle_spec 4 [H.closing] rfl _).weaken fun _ _ built =>
        ⟨.responded path r summary (.fulfilled v), [], [_], by simp, lead_nil _, trivial, ?_,
          List.append_nil _, (built.spend 5 rfl).congr rfl rfl rfl⟩
      simp at quiet
      simp [Stage.added, Handled.told, quiet]

theorem serveResponded_spec {path : String} {r : Response} {summary : String}
    {sent : Outcome Value Failure} :
    Holds (H.Building rs (H.cells (.responded path r summary sent)) js ns)
      (serveResponded (H.base + 1) (Handled.ofSend H.fault path r summary sent).outcome)
      fun _ => H.Moved (.responded path r summary sent) rs js ns := by
  cases sent with
  | fulfilled v =>
    cases fault : H.fault with
    | none =>
      exact (settle_spec 1 [H.finishing] rfl _).weaken fun _ _ built =>
        Moved.plain (.served (.answered path r summary)) (by simp) trivial rfl
          (by simp [wires, Handled.ofSend, fault]) (built.spend 4 rfl)
    | some m =>
      exact (settle_spec 1 [H.finishing] rfl _).weaken fun _ _ built =>
        Moved.plain (.served (.faulted path r summary (Failure.plain m))) (by simp) rfl rfl
          (by simp [wires, Handled.ofSend, fault]) (built.spend 4 rfl)
  | rejected err =>
    exact (settle_spec 1 [H.finishing] rfl _).weaken fun _ _ built =>
      Moved.plain (.served (.unanswered path r (Failure.writeFailed err))) (by simp) rfl rfl rfl
        (built.spend 4 rfl)

theorem handleServed_spec {result : Handled} (valid : result.Reportable) :
    Holds (H.Building rs (H.cells (.served result)) js ns) (handleServed H.socket H.base result.outcome)
      fun _ => H.Moved (.served result) rs js ns := by
  have closing : ∀ ns', Holds (H.Building rs (H.cells (.served result)) js ns')
      (do close H.socket; settle H.base (.fulfilled .unit))
      fun _ => H.Building rs (H.cells (.done result)) (js ++ [.task (.shut H.socket)]) ns' := fun _ =>
    Holds.bind (defer_spec _) fun _ => (settle_spec 0 [] rfl _).weaken fun _ _ built =>
      (built.spend 1 rfl).congr rfl (by simp) rfl
  have reported : ∀ f : Failure, f.isTransfer = true →
      (∀ ns', ns' = ns ++ [.log .warn s!"{f.message} ({Endpoint.remoteAddress})" [], .connectionError f] →
        Holds (H.Building rs (H.cells (.served result)) js ns') (do close H.socket; settle H.base (.fulfilled .unit))
          fun _ => H.Moved (.served result) rs js ns) →
      Holds (H.Building rs (H.cells (.served result)) js ns) (handleServed H.socket H.base (.rejected f))
        fun _ => H.Moved (.served result) rs js ns := by
    intro f transfer rest
    simp only [handleServed, transfer, if_true]
    exact Holds.bind (log_spec _ _) fun _ => Holds.bind (note_spec _) fun _ => rest _ (by simp)
  cases result with
  | unread f =>
    refine reported f (by simp [Failure.isTransfer, show f.kind = .read from valid]) fun ns' extra => ?_
    subst extra
    exact (closing _).weaken fun _ _ built =>
      ⟨.done (.unread f), [.task (.shut H.socket)], _, by simp, Or.inr rfl, valid, rfl, rfl,
        built.congr rfl (by simp [next]) rfl⟩
  | unanswered path r f =>
    refine reported f (by simp [Failure.isTransfer, show f.kind = .write from valid]) fun ns' extra => ?_
    subst extra
    exact (closing _).weaken fun _ _ built =>
      ⟨.done (.unanswered path r f), [.task (.shut H.socket)], _, by simp, Or.inr rfl, valid, rfl, rfl,
        built.congr rfl (by simp [next]) rfl⟩
  | dismissed =>
    exact (closing _).weaken fun _ _ built =>
      ⟨.done .dismissed, [.task (.shut H.socket)], [], by simp, Or.inr rfl, valid, by simp [Stage.added, Handled.early], rfl,
        built.congr rfl (by simp [next]) (by simp)⟩
  | answered path r summary =>
    exact (closing _).weaken fun _ _ built =>
      ⟨.done (.answered path r summary), [.task (.shut H.socket)], [], by simp, Or.inr rfl, valid,
        by simp [Stage.added, Handled.early], rfl, built.congr rfl (by simp [next]) (by simp)⟩
  | faulted path r summary f =>
    have other : f.isTransfer = false := valid
    simp only [Handled.outcome, handleServed, other]
    exact Holds.bind (note_spec _) fun _ => (closing _).weaken fun _ _ built =>
      ⟨.done (.faulted path r summary f), [.task (.shut H.socket)], _, by simp, Or.inr rfl, valid,
        by simp [Stage.added, Handled.early, Handled.notices], rfl, built.congr rfl (by simp [next]) rfl⟩

end Jobs

namespace At

variable {st : Stage} {past : List (Job Reaction Value Failure)} {w : World}
  {j : Job Reaction Value Failure} {rest : List (Job Reaction Value Failure)}

/-- Taking a job off the queue of a handler: its code runs from a world
being built. -/
theorem popped (now : H.At st past w) :
    H.Building w.readers (H.cells st) rest (H.before ++ st.added H.config.quiet)
      { w with loop := { w.loop with jobs := rest } } :=
  ⟨now.frame.with_loop (fun _ _ => rfl) fun _ mem => mem, rfl, now.cells.of_cells rfl, rfl, now.notices⟩

/-- What the job of a stage past the read leaves is the world of the handler
at the next stage, after that job. -/
theorem advance (now : H.At st past w) (queued : w.loop.jobs = j :: rest)
    (quiet : rest.filter (fun j => !H.stray j) = []) (done : H.ReadDone w) {w' : World}
    (moved : H.Moved st w.readers rest (H.before ++ st.added H.config.quiet) w') :
    H.Runs (past ++ [j]) w' := by
  obtain ⟨st', lead, extra, other, leadAt, valid, added, wires, built⟩ := moved
  have done' : H.ReadDone w' := fun rd found => done rd (built.readers ▸ found)
  refine ⟨st', built.frame, built.cells, ⟨lead, leadAt, ?_⟩, ReaderAt.of_done other done', valid,
    by rw [built.notices, List.append_assoc, added], ?_⟩
  · rw [built.jobs, List.filter_append, quiet, List.nil_append, filter_lead_next leadAt]
  · rw [built.jobs, ← wires, ← now.wires, queued, List.append_assoc, List.singleton_append,
      ← List.cons_append, List.filterMap_append, List.filterMap_append, List.filterMap_append,
      filterMap_wire_next, List.append_nil, List.filterMap_append, List.append_assoc]

/-- Taking a job that is not the stage's own off the queue keeps the stage. -/
theorem pop (now : H.At st past w) (queued : w.loop.jobs = j :: rest) {lead : List (Job Reaction Value Failure)}
    (leadAt : H.Lead st lead) (filtered : rest.filter (fun j => !H.stray j) = lead ++ H.next st) :
    H.At st (past ++ [j]) { w with loop := { w.loop with jobs := rest } } :=
  { now with
    frame := now.frame.with_loop (fun _ _ => rfl) fun _ mem => mem
    cells := now.cells.of_cells rfl
    jobs := ⟨lead, leadAt, filtered⟩
    wires := by rw [List.append_assoc, List.singleton_append, ← queued]; exact now.wires }

/-- The job of a stage, run, moves the handler to the next stage. -/
theorem resume (now : H.At st past w) (queued : w.loop.jobs = j :: rest)
    (quiet : rest.filter (fun j => !H.stray j) = []) (done : H.ReadDone w) {code : Sim Unit}
    (job : runJob j = code)
    (spec : Holds (H.Building w.readers (H.cells st) rest (H.before ++ st.added H.config.quiet))
      code fun _ => H.Moved st w.readers rest (H.before ++ st.added H.config.quiet)) :
    H.Runs (past ++ [j]) ((runJob j).run { w with loop := { w.loop with jobs := rest } }).2 := by
  rw [job]
  exact now.advance queued quiet done (spec _ now.popped)

theorem own_runs (now : H.At st past w) (queued : w.loop.jobs = j :: rest)
    (own : j :: rest.filter (fun j => !H.stray j) = H.next st) :
    H.Runs (past ++ [j]) ((runJob j).run { w with loop := { w.loop with jobs := rest } }).2 := by
  cases st with
  | reading => simp [next] at own
  | done result => simp [next] at own
  | read o =>
    obtain ⟨rfl, quiet⟩ := List.cons_eq_cons.1 own
    exact now.resume queued quiet now.reader rfl (requestRead_spec now.valid)
  | parsed o =>
    obtain ⟨rfl, quiet⟩ := List.cons_eq_cons.1 own
    exact now.resume queued quiet now.reader rfl (serveRead_spec now.valid)
  | sending path r summary sent =>
    obtain ⟨rfl, quiet⟩ := List.cons_eq_cons.1 own
    exact now.resume queued quiet now.reader rfl writeSent_spec
  | written path r summary sent =>
    obtain ⟨rfl, quiet⟩ := List.cons_eq_cons.1 own
    exact now.resume queued quiet now.reader rfl respondWritten_spec
  | responded path r summary sent =>
    obtain ⟨rfl, quiet⟩ := List.cons_eq_cons.1 own
    exact now.resume queued quiet now.reader rfl serveResponded_spec
  | served result =>
    obtain ⟨rfl, quiet⟩ := List.cons_eq_cons.1 own
    exact now.resume queued quiet now.reader rfl (handleServed_spec now.valid)

theorem lead_runs (now : H.At st past w) (queued : w.loop.jobs = j :: rest)
    {ahead : List (Job Reaction Value Failure)} (leadAt : H.Lead st (j :: ahead))
    (filtered : rest.filter (fun j => !H.stray j) = ahead ++ H.next st) :
    H.Runs (past ++ [j]) ((runJob j).run { w with loop := { w.loop with jobs := rest } }).2 := by
  cases st
  case sending path r summary sent =>
    obtain ⟨⟨e, same⟩, -⟩ := leadAt.resolve_left (List.cons_ne_nil _ _)
    obtain ⟨rfl, rfl⟩ := List.cons_eq_cons.1 same
    exact arrive_runs e _ _ ⟨_, now.pop queued (Or.inl rfl) filtered⟩
  case done result =>
    obtain ⟨rfl, rfl⟩ := List.cons_eq_cons.1 (leadAt.resolve_left (List.cons_ne_nil _ _))
    exact closeNow_runs _ _ ⟨_, now.pop queued (Or.inl rfl) filtered⟩
  all_goals exact absurd leadAt (List.cons_ne_nil _ _)

end At

theorem eq_of_stray {j : Job Reaction Value Failure} (stray : H.stray j = true) :
    j = .task (.readTimedOut H.reader) := by
  unfold Handler.stray at stray
  split at stray
  · next r => rw [beq_iff_eq.1 stray]
  · cases stray

/-- Running the next job keeps the handler at some stage: a timeout of its
read, its write or its close, or its own stage's job. -/
theorem job_runs {past : List (Job Reaction Value Failure)} {w : World} (runs : H.Runs past w) :
    H.Runs (past ++ Happening.job.ran w) (Happening.job.apply w) := by
  obtain ⟨st, now⟩ := runs
  cases queued : w.loop.jobs with
  | nil =>
    have idle : Happening.job.apply w = w := by
      simp only [Happening.apply, Session.Server.runNext, bind_run, get_run, Loop.next?, queued]
      rfl
    rw [idle, Happening.ran, queued]
    exact ⟨st, by simpa using now⟩
  | cons j rest =>
    have ran : Happening.job.apply w = ((runJob j).run { w with loop := { w.loop with jobs := rest } }).2 := by
      simp only [Happening.apply, Session.Server.runNext, bind_run, get_run, next_of_cons w.loop queued]
      rfl
    rw [ran, Happening.ran, queued]
    obtain ⟨lead, leadAt, filtered⟩ := now.jobs
    rw [queued] at filtered
    by_cases strayJob : H.stray j = true
    · rw [List.filter_cons_of_neg (by simp [strayJob])] at filtered
      obtain rfl := eq_of_stray strayJob
      refine Holds.bind Holds.get (fun _ => (settleReader_runs H.reader ?_).strengthen fun _ pre => pre.1) _
        ⟨st, now.pop queued leadAt filtered⟩
      rfl
    · rw [List.filter_cons_of_pos (by simpa using strayJob)] at filtered
      cases lead with
      | nil => exact now.own_runs queued filtered
      | cons l ahead =>
        rw [List.cons_append] at filtered
        obtain ⟨rfl, behind⟩ := List.cons_eq_cons.1 filtered
        exact now.lead_runs queued leadAt behind

end Handler

end Machine
end HttpStub
