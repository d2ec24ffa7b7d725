import HttpStub.Proofs.Machine.Lifecycle

namespace HttpStub

/-!
# Accept failures

A listener that reports an error after its bind, and a connection that
cannot be taken over, reach the acceptor as accept failures.  They travel in
the same queue as the connections: an open acceptor hands an arrival to its
oldest waiter, or queues it after every earlier one, and each round of the
accept loop takes the oldest arrival.

A failure other than the acceptor's close does not end the loop.  It is
logged as a warning that the server still accepts and announced as an
accept error, once each and in that order; the failure is announced as it
came when it is an accept failure already, and wrapped as one otherwise.
Then the loop starts its next round: the phase is accepting again, nothing
is closed, and the acceptor is asked for its next arrival, so a connection
queued behind failures is the next thing the loop gets.

`World.asked` is the world after the loop asks its acceptor and waits on
the answer.  The run lemma `failures_worked_through` works through a queue
of failures one job at a time, from a world with nothing else to do: the
loop ends where it would have been had the failures never been queued, with
their notices logged.

Main statement, `accept_failures_keep_the_loop_going`.
-/

/-- What an accept that gets this arrival settles with: the connection, or
the failure. -/
def Arrival.outcome : Arrival → Async.Outcome Machine.Value Failure
  | .socket s => .fulfilled (.socket s)
  | .failure f => .rejected f

/-- What an accept is answered with at once: the oldest arrival, or a
refusal once the acceptor is closed; nothing while it must wait. -/
def Take.answer : Take → Option (Async.Outcome Machine.Value Failure)
  | .arrival x => some x.outcome
  | .refused => some (.rejected Failure.acceptorClosed)
  | .wait => none

namespace Async.Loop

open Machine

/-- The cells after the accept loop asks for an arrival and attaches `k` to
the answer: a new waiter, and after it a settled cell when the answer is
there at once. -/
def asked (l : Loop Reaction Value Failure) (k : Reaction) :
    Option (Outcome Value Failure) → Loop Reaction Value Failure
  | some o => (l.fresh.2.settledCell o).2.onSettled l.fresh.2.cells.size k
  | none => l.fresh.2.onSettled l.cells.size k

variable (l : Loop Reaction Value Failure) (k : Reaction)

@[simp] theorem jobs_asked (o : Option (Outcome Value Failure)) :
    (l.asked k o).jobs = l.jobs ++ (o.map (Job.resume k)).toList := by
  cases o <;> simp [asked, fresh, settledCell, onSettled, Array.getElem_push]

theorem waiter_asked : (l.asked k none).cells[l.cells.size]? = some (.pending [k]) := by
  simp [asked, fresh, onSettled, Array.getElem_modify]

end Async.Loop

namespace Machine

open Async

/-- The notices the accept loop leaves for an accept failure: a warning
that it still accepts, then the failure announced. -/
def acceptNotices (f : Failure) : List Notice :=
  [.log .warn s!"{f.message}; still accepting" [], .acceptError f]

/-- The world after the accept loop asks acceptor `a` for its oldest
arrival and waits on the answer with `k`. -/
def World.asked (w : World) (a : Nat) (k : Reaction) : World :=
  let taken := (w.acceptors[a]?.getD {}).take w.loop.cells.size
  { w with acceptors := w.acceptors.modify a fun _ => taken.1,
           loop := w.loop.asked k taken.2.answer }

/-! ## Arrays of records -/

section Arrays

variable {α : Type} (xs : Array α) (i : Nat)

theorem modify_modify (f g : α → α) : (xs.modify i f).modify i g = xs.modify i (g ∘ f) := by
  apply Array.ext_getElem?
  intro j
  simp only [Array.getElem?_modify]
  split <;> simp

theorem modify_congr {f g : α → α} (agree : ∀ x, xs[i]? = some x → f x = g x) :
    xs.modify i f = xs.modify i g := by
  apply Array.ext_getElem?
  intro j
  simp only [Array.getElem?_modify]
  split
  · next same =>
    subst same
    cases found : xs[i]? with
    | none => rfl
    | some x => simp [agree x found]
  · rfl

theorem modify_of_fixed {f : α → α} (fixed : ∀ x, xs[i]? = some x → f x = x) : xs.modify i f = xs := by
  rw [modify_congr xs i (g := fun x => x) fixed]
  apply Array.ext_getElem?
  intro j
  simp only [Array.getElem?_modify]
  split <;> simp

end Arrays

theorem push_push_eq_append {α : Type} (xs : Array α) (a b : α) :
    (xs.push a).push b = xs ++ [a, b].toArray := by
  simp only [Array.push_eq_append, Array.append_assoc]
  rfl

/-! ## Asking the acceptor -/

section Asking

variable (w : World) (a : Nat) (k : Reaction)

@[simp] theorem notices_asked : (w.asked a k).notices = w.notices := rfl

@[simp] theorem server_asked : (w.asked a k).server = w.server := rfl

@[simp] theorem sockets_asked : (w.asked a k).sockets = w.sockets := rfl

/-- An acceptor with arrivals queued answers with the oldest at once, which
is queued for `k`, and keeps the others in their order. -/
theorem asked_of_ready {x : Arrival} {rest : List Arrival}
    (queued : (w.acceptors[a]?.getD {}).ready = x :: rest) :
    (w.asked a k).loop.jobs = w.loop.jobs ++ [.resume k x.outcome] ∧
      ((w.asked a k).acceptors[a]?.getD {}).ready = rest := by
  cases found : w.acceptors[a]? with
  | none => simp [found] at queued
  | some acc =>
    rw [found, Option.getD_some] at queued
    simp [World.asked, found, Acceptor.take, queued, Take.answer, Array.getElem?_modify]

/-- An open acceptor with nothing queued takes the new waiter last among
its waiters, and `k` waits on it. -/
theorem asked_of_empty (empty : (w.acceptors[a]?.getD {}).ready = [])
    (opened : (w.acceptors[a]?.getD {}).closed = false) (inside : a < w.acceptors.size) :
    (w.asked a k).loop.jobs = w.loop.jobs ∧
      ((w.asked a k).acceptors[a]?.getD {}).waiters =
        (w.acceptors[a]?.getD {}).waiters ++ [w.loop.cells.size] ∧
      (w.asked a k).loop.cells[w.loop.cells.size]? = some (.pending [k]) := by
  have found : w.acceptors[a]? = some w.acceptors[a] := Array.getElem?_eq_getElem inside
  rw [found, Option.getD_some] at empty opened
  have answer : ((w.acceptors[a]?.getD {}).take w.loop.cells.size).2.answer = none := by
    simp [found, Acceptor.take, empty, opened, Take.answer]
  refine ⟨?_, ?_, ?_⟩
  · simp [World.asked, answer]
  · simp [World.asked, found, Acceptor.take, empty, opened, Array.getElem?_modify]
  · simp only [World.asked, answer]
    exact Loop.waiter_asked _ _

end Asking

/-! ## Running the accept loop -/

variable {w : World} {s : Server}

theorem accept_onSettled_run (a : Nat) (k : Reaction) :
    ((accept a >>= fun c => onSettled c k).run w).2 = w.asked a k := by
  simp only [accept, World.asked, bind_run, fresh_run, acceptor_run]
  generalize (w.acceptors[a]?.getD {}).take w.loop.cells.size = taken
  obtain ⟨acc, answer⟩ := taken
  cases answer with
  | arrival x => cases x <;> rfl
  | refused => rfl
  | wait => rfl

/-- A round of the accept loop on a server that was not stopped: the phase
becomes accepting and the loop asks its acceptor again. -/
theorem loopRound_asks (a : Nat) (own : CellId) (hs : w.server = some s) (running : s.phase ≠ .stopped) :
    ((loopRound a own).run w).2 =
      World.asked { w with server := some { s with phase := .accepting } } a (.loopAccepted a own) := by
  have awake : stopped.run w = (false, w) := by simp [stopped_run, hs, beq_eq_false_iff_ne.2 running]
  simp only [loopRound, bind_run, awake, Bool.false_eq_true, if_false, setPhase, modifyServer_run, hs,
    Option.map_some]
  exact accept_onSettled_run a _

/-- The accept loop after an accept that failed other than by the
acceptor's close: it warns and announces the failure as an accept failure,
once each and in that order, and starts its next round. -/
theorem loopAccepted_rejected (a : Nat) (own : CellId) {f : Failure} (unclosed : f.kind ≠ .acceptorClosed) :
    ∃ err : Failure, err.kind = .accept ∧ (f.kind = .accept → err = f) ∧
      ((loopAccepted a own (.rejected f)).run w).2 =
        ((loopRound a own).run { w with notices := w.notices ++ (acceptNotices err).toArray }).2 := by
  by_cases accepting : f.kind = .accept
  · refine ⟨f, accepting, fun _ => rfl, ?_⟩
    simp only [loopAccepted, accepting, beq_iff_eq, reduceCtorEq, if_false, if_true, bind_run, log, note_run,
      acceptNotices, push_push_eq_append]
  · refine ⟨Failure.accept f.message (some f), rfl, fun same => absurd same accepting, ?_⟩
    simp only [loopAccepted, unclosed, accepting, beq_iff_eq, if_false, bind_run, log, note_run,
      acceptNotices, push_push_eq_append]

/-! ## Arrivals -/

/-- A listener whose bind has settled passes each error it reports to its
acceptor as an accept failure that names the error and keeps it as the
cause. -/
theorem listenerError_after_bind {l : Nat} {lst : Listener} (found : w.listeners[l]? = some lst)
    (bound : lst.settled = true) (err : Failure) :
    (listenerError l err).run w =
      (deliverArrival lst.owner (.failure (Failure.accept s!"Accept failed: {err.message}" (some err)))).run w := by
  simp only [listenerError, bind_run, listener?_run, found, bound, Bool.not_true, Bool.false_eq_true, if_false]

/-- A listener that listens passes a connection it cannot take over to its
acceptor as an accept failure, with the reason as the cause. -/
theorem offer_foreign {l : Nat} {lst : Listener} (found : w.listeners[l]? = some lst)
    (listening : lst.listening = true) :
    (offer l .foreign).run w =
      (.ok (), ((deliverArrival lst.owner (.failure (Failure.accept "Could not wrap accepted socket"
        (some (Failure.plain "Expected an InMemoryTcpSocket instance"))))).run w).2) := by
  simp only [offer, bind_run, listener?_run, found, listening, Bool.not_true, Bool.false_eq_true, if_false,
    pure_run]

theorem deliverArrival_queued (a : Nat) (x : Arrival) (opened : (w.acceptors[a]?.getD {}).closed = false)
    (idle : (w.acceptors[a]?.getD {}).waiters = []) :
    ((deliverArrival a x).run w).2 =
      { w with acceptors := w.acceptors.modify a fun acc => { acc with ready := acc.ready ++ [x] } } := by
  have placed : (w.acceptors[a]?.getD {}).place x =
      ({ w.acceptors[a]?.getD {} with ready := (w.acceptors[a]?.getD {}).ready ++ [x] }, .queued) := by
    simp [Acceptor.place, opened, idle]
  have same : (w.acceptors.modify a fun _ =>
        { w.acceptors[a]?.getD {} with ready := (w.acceptors[a]?.getD {}).ready ++ [x] }) =
      w.acceptors.modify a fun acc => { acc with ready := acc.ready ++ [x] } :=
    modify_congr _ _ fun acc found => by simp [found]
  simp only [deliverArrival, bind_run, acceptor_run, placed, setAcceptor_run, same]
  cases x <;> rfl

/-- An open acceptor hands an arrival to its oldest waiter; when the accept
loop waits there, its reaction to the arrival is queued. -/
theorem deliverArrival_handed (a : Nat) (x : Arrival) {c : CellId} {ws : List CellId} {k : Reaction}
    (opened : (w.acceptors[a]?.getD {}).closed = false) (oldest : (w.acceptors[a]?.getD {}).waiters = c :: ws)
    (waits : w.loop.cells[c]? = some (.pending [k])) :
    ((deliverArrival a x).run w).2.loop.jobs = w.loop.jobs ++ [.resume k x.outcome] := by
  have placed : (w.acceptors[a]?.getD {}).place x = ({ w.acceptors[a]?.getD {} with waiters := ws }, .handed c) := by
    simp [Acceptor.place, opened, oldest]
  simp only [deliverArrival, bind_run, acceptor_run, placed, setAcceptor_run]
  cases x <;> simp [settle_run, Loop.settle, waits, Arrival.outcome]

/-! ## Working through queued failures -/

theorem acceptors_asked_ready (w : World) (a : Nat) (k : Reaction) {x : Arrival} {tail : List Arrival}
    (queued : (w.acceptors[a]?.getD {}).ready = x :: tail) (rest : List Arrival) :
    (w.asked a k).acceptors.modify a (fun acc => { acc with ready := rest }) =
      w.acceptors.modify a fun acc => { acc with ready := rest } := by
  simp only [World.asked]
  rw [modify_modify]
  apply modify_congr
  intro acc found
  rw [found, Option.getD_some] at queued
  simp [found, Acceptor.take, queued]

/-- From a world with nothing else to do, a round of the accept loop over
accept failures queued ahead of `rest`, followed by one job for each, notes
every failure in queue order and leaves the loop asking for the arrivals of
`rest`, as if the failures had never been queued.  What the failures' rounds
leave behind is cells that nothing waits on. -/
theorem failures_worked_through (a : Nat) (own : CellId) (rest : List Arrival) (fs : List Failure) :
    ∀ (w : World) (s : Server), (∀ f ∈ fs, f.kind = .accept) →
      w.server = some s → s.phase ≠ .stopped → w.loop.jobs = [] →
      (w.acceptors[a]?.getD {}).ready = fs.map .failure ++ rest →
      ∃ l : Loop Reaction Value Failure, l.jobs = [] ∧
        Session.Server.Move.run (List.replicate fs.length .job) ((loopRound a own).run w).2 =
          World.asked { w with notices := w.notices ++ (fs.flatMap acceptNotices).toArray,
                               server := some { s with phase := .accepting },
                               acceptors := w.acceptors.modify a fun acc => { acc with ready := rest },
                               loop := l } a (.loopAccepted a own) := by
  induction fs with
  | nil =>
    intro w s _ hs running calm queued
    have kept : w.acceptors.modify a (fun acc => { acc with ready := rest }) = w.acceptors :=
      modify_of_fixed _ _ fun acc found => by
        rw [found, Option.getD_some, List.map_nil, List.nil_append] at queued
        rw [← queued]
    refine ⟨w.loop, calm, ?_⟩
    simp [loopRound_asks a own hs running, kept]
  | cons f fs more =>
    intro w s accepts hs running calm queued
    let k := Reaction.loopAccepted a own
    let w₁ := World.asked { w with server := some { s with phase := .accepting } } a k
    obtain ⟨answered, ready⟩ := asked_of_ready { w with server := some { s with phase := .accepting } } a k queued
    rw [calm, List.nil_append] at answered
    have next : w₁.loop.next? = some (.resume k (.rejected f), { w₁.loop with jobs := [] }) := by
      simp [Loop.next?, w₁, answered, Arrival.outcome]
    have accepting : f.kind = .accept := accepts f List.mem_cons_self
    obtain ⟨err, -, same, resumed⟩ := loopAccepted_rejected (w := { w₁ with loop := { w₁.loop with jobs := [] } })
      a own (f := f) (by rw [accepting]; decide)
    rw [same accepting] at resumed
    let w₂ : World := { w₁ with loop := { w₁.loop with jobs := [] },
                                notices := w.notices ++ (acceptNotices f).toArray }
    obtain ⟨l, idle, worked⟩ := more w₂ { s with phase := .accepting }
      (fun g mem => accepts g (List.mem_cons_of_mem f mem)) rfl (by simp) rfl ready
    refine ⟨l, idle, ?_⟩
    rw [loopRound_asks a own hs running, List.length_cons, List.replicate_succ, Session.Server.Move.run_cons,
      Session.Server.Move.apply_job_of_next next,
      show runJob (.resume k (.rejected f)) = loopAccepted a own (.rejected f) from rfl, resumed]
    refine worked.trans ?_
    have notices : w₂.notices ++ (fs.flatMap acceptNotices).toArray =
        w.notices ++ ((f :: fs).flatMap acceptNotices).toArray := by
      simp [w₂, Array.append_assoc]
    have acceptors : w₂.acceptors.modify a (fun acc => { acc with ready := rest }) =
        w.acceptors.modify a fun acc => { acc with ready := rest } :=
      acceptors_asked_ready _ a k queued rest
    rw [notices, acceptors]
    rfl

/-! ## Accept failures keep the loop going -/

/-- Accept failures keep the accept loop going.

A listener error after the bind, and a connection that cannot be taken
over, reach the listener's acceptor as accept failures that say what
failed and keep it as the cause.  An open acceptor queues an arrival after
every earlier one, or hands it to its oldest waiter, and when the accept
loop waits there, the loop's reaction to it is queued.

That reaction, on a server that was not stopped, warns that the server
still accepts and announces the failure, once each and in that order, as
an accept failure that is the failure itself when it is one already; then
the loop asks its acceptor again, with the phase accepting and the rest of
the world as it was.  Asking is answered with the oldest arrival at once,
or waits as the last waiter.

From a world with nothing else to do, a round over failures queued ahead of
other arrivals, and a job for each, notes every failure in queue order and
leaves the loop asking for the other arrivals as if the failures had never
been queued. -/
theorem accept_failures_keep_the_loop_going :
    (∀ (w : World) (l : Nat) (lst : Listener) (err : Failure),
      w.listeners[l]? = some lst → lst.settled = true →
      (listenerError l err).run w =
        (deliverArrival lst.owner (.failure (Failure.accept s!"Accept failed: {err.message}" (some err)))).run w) ∧
    (∀ (w : World) (l : Nat) (lst : Listener), w.listeners[l]? = some lst → lst.listening = true →
      (offer l .foreign).run w =
        (.ok (), ((deliverArrival lst.owner (.failure (Failure.accept "Could not wrap accepted socket"
          (some (Failure.plain "Expected an InMemoryTcpSocket instance"))))).run w).2)) ∧
    (∀ (w : World) (a : Nat) (x : Arrival),
      (w.acceptors[a]?.getD {}).closed = false → (w.acceptors[a]?.getD {}).waiters = [] →
      ((deliverArrival a x).run w).2 =
        { w with acceptors := w.acceptors.modify a fun acc => { acc with ready := acc.ready ++ [x] } }) ∧
    (∀ (w : World) (a : Nat) (own c : CellId) (ws : List CellId) (x : Arrival),
      (w.acceptors[a]?.getD {}).closed = false → (w.acceptors[a]?.getD {}).waiters = c :: ws →
      w.loop.cells[c]? = some (.pending [.loopAccepted a own]) →
      ((deliverArrival a x).run w).2.loop.jobs = w.loop.jobs ++ [.resume (.loopAccepted a own) x.outcome]) ∧
    (∀ (w : World) (s : Server) (a : Nat) (own : CellId) (f : Failure),
      w.server = some s → s.phase ≠ .stopped → f.kind ≠ .acceptorClosed →
      ∃ err : Failure, err.kind = .accept ∧ (f.kind = .accept → err = f) ∧
        ((loopAccepted a own (.rejected f)).run w).2 =
          World.asked { w with notices := w.notices ++ (acceptNotices err).toArray,
                               server := some { s with phase := .accepting } } a (.loopAccepted a own)) ∧
    (∀ (w : World) (a : Nat) (k : Reaction) (x : Arrival) (rest : List Arrival),
      (w.acceptors[a]?.getD {}).ready = x :: rest →
      (w.asked a k).loop.jobs = w.loop.jobs ++ [.resume k x.outcome] ∧
        ((w.asked a k).acceptors[a]?.getD {}).ready = rest) ∧
    (∀ (w : World) (a : Nat) (k : Reaction),
      (w.acceptors[a]?.getD {}).ready = [] → (w.acceptors[a]?.getD {}).closed = false → a < w.acceptors.size →
      (w.asked a k).loop.jobs = w.loop.jobs ∧
        ((w.asked a k).acceptors[a]?.getD {}).waiters = (w.acceptors[a]?.getD {}).waiters ++ [w.loop.cells.size] ∧
        (w.asked a k).loop.cells[w.loop.cells.size]? = some (.pending [k])) ∧
    (∀ (a : Nat) (own : CellId) (rest : List Arrival) (fs : List Failure) (w : World) (s : Server),
      (∀ f ∈ fs, f.kind = .accept) → w.server = some s → s.phase ≠ .stopped → w.loop.jobs = [] →
      (w.acceptors[a]?.getD {}).ready = fs.map .failure ++ rest →
      ∃ l : Loop Reaction Value Failure, l.jobs = [] ∧
        Session.Server.Move.run (List.replicate fs.length .job) ((loopRound a own).run w).2 =
          World.asked { w with notices := w.notices ++ (fs.flatMap acceptNotices).toArray,
                               server := some { s with phase := .accepting },
                               acceptors := w.acceptors.modify a fun acc => { acc with ready := rest },
                               loop := l } a (.loopAccepted a own)) := by
  refine ⟨fun _ _ _ err found bound => listenerError_after_bind found bound err,
    fun _ _ _ found listening => offer_foreign found listening,
    fun _ a x opened idle => deliverArrival_queued a x opened idle,
    fun _ a _ _ _ x opened oldest waits => deliverArrival_handed a x opened oldest waits,
    fun _ _ a own _ hs running unclosed => ?_,
    fun w a k _ _ queued => asked_of_ready w a k queued,
    fun w a k empty opened inside => asked_of_empty w a k empty opened inside,
    fun a own rest fs w s accepts hs running calm queued =>
      failures_worked_through a own rest fs w s accepts hs running calm queued⟩
  obtain ⟨err, accepting, same, resumed⟩ := loopAccepted_rejected a own unclosed
  exact ⟨err, accepting, same, resumed.trans (loopRound_asks a own hs running)⟩

/-- Two accept failures queued ahead of a connection, one from a listener
error and one from a connection that could not be taken over: after the
round and a job for each, both are warned of and announced in order, and
the loop's next job is the connection. -/
theorem accept_failures_keep_the_loop_going_past_two_errors :
    let reset := Failure.accept "Accept failed: reset" (some (Failure.plain "reset"))
    let foreign := Failure.accept "Could not wrap accepted socket"
      (some (Failure.plain "Expected an InMemoryTcpSocket instance"))
    let w₀ : World :=
      { server := some { config := ServerConfig.default, table := ServerConfig.default.routeTable,
                         dispatcher := .sequential 0, phase := .accepting },
        acceptors := #[{ ready := [.failure reset, .failure foreign, .socket 1] }] }
    let w := Session.Server.Move.run [.job, .job] ((loopRound 0 0).run w₀).2
    w.notices.toList = acceptNotices reset ++ acceptNotices foreign ∧
      w.loop.jobs = [.resume (.loopAccepted 0 0) (.fulfilled (.socket 1))] := by
  intro reset foreign w₀ w
  obtain ⟨l, idle, worked⟩ := accept_failures_keep_the_loop_going.2.2.2.2.2.2.2 0 0 [.socket 1]
    [reset, foreign] w₀ _ (by simp [reset, foreign, Failure.accept, Failure.kind]) rfl (by decide) rfl rfl
  have ran : w = _ := worked
  rw [ran]
  refine ⟨by simp [w₀], ?_⟩
  rw [(accept_failures_keep_the_loop_going.2.2.2.2.2.1 _ 0 _ (.socket 1) [] ?_).1, idle]
  · rfl
  · simp [w₀]

end Machine
end HttpStub
