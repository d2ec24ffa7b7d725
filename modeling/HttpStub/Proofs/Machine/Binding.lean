import HttpStub.Proofs.Machine.AcceptFailures

namespace HttpStub
namespace Machine

/-!
# Binding an acceptor

A bind creates a listener and waits for it to report.  The listener has one
channel for both of its reports: that it listens, or an error.  Which of the
two comes first decides the bind, once: the listener's `settled` flag, set
by whichever report comes first, sends every later report elsewhere.  A
listening report that comes later is ignored, and an error that comes later
is an accept failure for the acceptor.

Main statement, `bind_settles_by_first_report`.  An acceptor that is bound,
or whose bind still waits, refuses another bind at once and changes nothing
but the refused cell.  Otherwise the bind's cell waits until the listener's
first report and then holds what that report decides: the port the listener
reports, or the requested port when it reports none, or a setup failure that
names the address and the error.  An error first leaves the acceptor
unbound, so it may bind again.  After a listening report, the later reports
act exactly as one accept failure per error, handed to the acceptor in the
order the errors came.

`Binding w l lst` is the world while listener `l`, in state `lst`, waits for
its first report.  One lemma per report says what it does then, and
`run_of_settled` says what the later reports do.
-/

open Async

/-- What a listener reports to the acceptor that binds it: that it listens,
or an error. -/
inductive Report where
  | ready
  | error (err : Failure)

/-- The failure a bind rejects with when its listener reports `err` first:
a setup failure that names the address asked for and the error. -/
def bindFailure (req : BindRequest) (err : Failure) : Failure :=
  Failure.setup ("Failed to listen on " ++ req.host.getD "*" ++ ":" ++ req.port.render ++ ": " ++ err.message)
    (some err)

/-- The accept failure a listener error becomes once the bind has settled. -/
def acceptFailure (err : Failure) : Failure :=
  Failure.accept ("Accept failed: " ++ err.message) (some err)

/-- The port a listener reports, if it exists and listens. -/
def World.reportedPort (w : World) (l : Nat) : Option Double :=
  w.listeners[l]?.bind Listener.address

namespace Report

/-- Listener `l` reports. -/
def apply (l : Nat) : Report → Sim Unit
  | .ready => listenerReady l
  | .error err => listenerError l err

/-- The world after listener `l` reports, one report after another. -/
def run (l : Nat) (reports : List Report) (w : World) : World :=
  reports.foldl (fun w r => ((r.apply l).run w).2) w

/-- The errors among some reports, in order. -/
def errors : List Report → List Failure
  | [] => []
  | .ready :: rest => errors rest
  | .error err :: rest => err :: errors rest

/-- How a bind for `req` settles when this report comes first, while the
listener reports `port`: with that port or the requested one, or with the
bind failure. -/
def outcome (req : BindRequest) (port : Option Double) : Report → Outcome Value Failure
  | .ready => .fulfilled (.port (port.getD req.port))
  | .error err => .rejected (bindFailure req err)

@[simp] theorem run_nil (l : Nat) (w : World) : run l [] w = w := rfl

@[simp] theorem run_cons (l : Nat) (r : Report) (reports : List Report) (w : World) :
    run l (r :: reports) w = run l reports ((r.apply l).run w).2 := rfl

end Report

/-- Hand each failure to acceptor `a` as an arrival, one after another. -/
def deliverFailures (a : Nat) (fs : List Failure) (w : World) : World :=
  fs.foldl (fun w f => ((deliverArrival a (.failure (acceptFailure f))).run w).2) w

/-- The world while listener `l`, in state `lst`, waits for its first
report: its bind has not settled and the bind's cell waits. -/
structure Binding (w : World) (l : Nat) (lst : Listener) : Prop where
  found : w.listeners[l]? = some lst
  unsettled : lst.settled = false
  waits : ∃ ks, w.loop.cells[lst.bindCell]? = some (.pending ks)

/-! ## What an arrival leaves alone -/

section Arrival

variable (w : World) (a : Nat) (x : Arrival)

theorem listeners_deliverArrival : ((deliverArrival a x).run w).2.listeners = w.listeners := by
  simp only [deliverArrival, bind_run, acceptor_run, setAcceptor_run]
  split <;> rfl

theorem keeps_deliverArrival : Loop.Keeps w.loop ((deliverArrival a x).run w).2.loop := by
  simp only [deliverArrival, bind_run, acceptor_run, setAcceptor_run]
  split
  · exact Loop.Keeps.of_cells rfl
  · exact Loop.Keeps.refl
  · exact Loop.Keeps.refl
  · exact Loop.keeps_settle _ _ _
  · exact Loop.keeps_settle _ _ _

theorem listener_deliverArrival (b : Nat) :
    (((deliverArrival a x).run w).2.acceptors[b]?.getD {}).listener = (w.acceptors[b]?.getD {}).listener := by
  have placed : ((w.acceptors[a]?.getD {}).place x).1.listener = (w.acceptors[a]?.getD {}).listener := by
    unfold Acceptor.place
    split
    · rfl
    · split <;> rfl
  have kept : ((w.acceptors.modify a fun _ => ((w.acceptors[a]?.getD {}).place x).1)[b]?.getD {}).listener =
      (w.acceptors[b]?.getD {}).listener := by
    rw [Array.getElem?_modify]
    split
    · next same =>
      subst same
      cases found : w.acceptors[a]? <;> simp_all
    · rfl
  simp only [deliverArrival, bind_run, acceptor_run, setAcceptor_run]
  split <;> exact kept

end Arrival

section Failures

variable (a : Nat)

theorem listeners_deliverFailures (fs : List Failure) (w : World) :
    (deliverFailures a fs w).listeners = w.listeners := by
  induction fs generalizing w with
  | nil => rfl
  | cons f fs ih => exact (ih _).trans (listeners_deliverArrival w a _)

theorem keeps_deliverFailures (fs : List Failure) (w : World) :
    Loop.Keeps w.loop (deliverFailures a fs w).loop := by
  induction fs generalizing w with
  | nil => exact Loop.Keeps.refl
  | cons f fs ih => exact (keeps_deliverArrival w a _).trans (ih _)

theorem listener_deliverFailures (fs : List Failure) (w : World) (b : Nat) :
    ((deliverFailures a fs w).acceptors[b]?.getD {}).listener = (w.acceptors[b]?.getD {}).listener := by
  induction fs generalizing w with
  | nil => rfl
  | cons f fs ih => exact (ih _).trans (listener_deliverArrival w a _ b)

end Failures

/-! ## The reports of a listener -/

section Reports

variable {w : World} {l : Nat} {lst : Listener}

/-- The first report that the listener listens settles the bind with the
port the listener reports, or the requested one, and records that port with
the acceptor. -/
theorem listenerReady_of_binding (b : Binding w l lst) :
    ((listenerReady l).run w).2 =
      { w with listeners := w.listeners.modify l fun x => { x with settled := true },
               acceptors := w.acceptors.modify lst.owner fun _ =>
                 { w.acceptors[lst.owner]?.getD {} with boundPort := some (lst.address.getD lst.request.port) },
               loop := w.loop.settle lst.bindCell (.fulfilled (.port (lst.address.getD lst.request.port))) } := by
  simp only [listenerReady, bind_run, listener?_run, b.found, b.unsettled, Bool.false_eq_true, if_false,
    modifyListener_run, acceptor_run, setAcceptor_run, settle_run]

/-- A first report of an error settles the bind with the bind failure and
leaves the acceptor unbound. -/
theorem listenerError_of_binding (b : Binding w l lst) (err : Failure) :
    ((listenerError l err).run w).2 =
      { w with listeners := w.listeners.modify l fun x => { x with settled := true },
               acceptors := w.acceptors.modify lst.owner fun _ =>
                 { w.acceptors[lst.owner]?.getD {} with listener := none },
               loop := w.loop.settle lst.bindCell (.rejected (bindFailure lst.request err)) } := by
  simp only [listenerError, bind_run, listener?_run, b.found, b.unsettled, Bool.not_false, if_true,
    modifyListener_run, acceptor_run, setAcceptor_run, settle_run]
  rfl

theorem listenerReady_of_settled (found : w.listeners[l]? = some lst) (settled : lst.settled = true) :
    (listenerReady l).run w = ((), w) := by
  simp only [listenerReady, bind_run, listener?_run, found, settled, if_true]
  rfl

/-- Once the bind has settled, the listener's reports act as its errors
handed to the acceptor as accept failures, in order. -/
theorem run_of_settled (found : w.listeners[l]? = some lst) (settled : lst.settled = true)
    (reports : List Report) : Report.run l reports w = deliverFailures lst.owner (Report.errors reports) w := by
  induction reports generalizing w with
  | nil => rfl
  | cons r reports ih =>
    cases r with
    | ready =>
      rw [Report.run_cons, Report.apply, listenerReady_of_settled found settled]
      exact ih found
    | error err =>
      rw [Report.run_cons, Report.apply, listenerError_after_bind found settled]
      have kept : ((deliverArrival lst.owner (.failure (acceptFailure err))).run w).2.listeners[l]? = some lst := by
        rw [listeners_deliverArrival, found]
      exact ih kept

theorem settled_after_first (b : Binding w l lst) (r : Report) :
    ((r.apply l).run w).2.listeners[l]? = some { lst with settled := true } := by
  cases r with
  | ready => simp [Report.apply, listenerReady_of_binding b, Array.getElem?_modify, b.found]
  | error err => simp [Report.apply, listenerError_of_binding b err, Array.getElem?_modify, b.found]

theorem outcome_after_first (b : Binding w l lst) (r : Report) :
    ((r.apply l).run w).2.loop.outcome? lst.bindCell = some (r.outcome lst.request lst.address) := by
  obtain ⟨ks, waits⟩ := b.waits
  cases r with
  | ready =>
    rw [Report.apply, listenerReady_of_binding b]
    exact Loop.outcome?_settle _ waits _
  | error err =>
    rw [Report.apply, listenerError_of_binding b err]
    exact Loop.outcome?_settle _ waits _

theorem unbound_after_error (b : Binding w l lst) (err : Failure) :
    ((((Report.error err).apply l).run w).2.acceptors[lst.owner]?.getD {}).listener = none := by
  rw [Report.apply, listenerError_of_binding b err, Array.getElem?_modify, if_pos rfl]
  cases w.acceptors[lst.owner]? <;> rfl

end Reports

/-! ## Binding -/

section Bind

variable {w : World} {l : Nat} {lst : Listener}

/-- A listener marked as listening on `port`, while the loop's cells stay as
they are, still waits for its first report. -/
theorem Binding.listening (b : Binding w l lst) (port : Option Double) {w' : World}
    (listeners : w'.listeners = w.listeners.modify l fun x => { x with port := port, listening := true })
    (cells : w'.loop.cells = w.loop.cells) :
    Binding w' l { lst with port := port, listening := true } where
  found := by simp [listeners, Array.getElem?_modify, b.found]
  unsettled := b.unsettled
  waits := cells ▸ b.waits

/-- Starting to listen, or failing to, only queues the listener's report:
the bind still waits, for the same cell, acceptor and request. -/
theorem listen_binding (b : Binding w l lst) :
    ∃ lst', Binding ((listen l).run w).2 l lst' ∧ lst'.bindCell = lst.bindCell ∧ lst'.owner = lst.owner ∧
      lst'.request = lst.request := by
  cases failing : w.bindError with
  | some err =>
    simp only [listen, bind_run, get_run, failing, defer_run]
    exact ⟨lst, ⟨b.found, b.unsettled, b.waits⟩, rfl, rfl, rfl⟩
  | none =>
    by_cases zero : lst.request.port.eqv 0 = true
    · have ran : ((listen l).run w).2 =
          { ({ w with nextPort := w.nextPort + 1 } : World) with
            listeners := w.listeners.modify l fun x => { x with port := some (Double.ofNat w.nextPort),
                                                                 listening := true },
            loop := w.loop.defer (.listenDone l) } := by
        conv_lhs => simp only [listen, bind_run, get_run, failing, listener?_run, b.found, zero, if_true]
        rfl
      rw [ran]
      exact ⟨_, b.listening _ rfl rfl, rfl, rfl, rfl⟩
    · have ran : ((listen l).run w).2 =
          { w with listeners := w.listeners.modify l fun x => { x with port := some lst.request.port,
                                                                       listening := true },
                   loop := w.loop.defer (.listenDone l) } := by
        conv_lhs => simp only [listen, bind_run, get_run, failing, listener?_run, b.found, zero,
          Bool.false_eq_true, if_false, pure_run]
        rfl
      rw [ran]
      exact ⟨_, b.listening _ rfl rfl, rfl, rfl, rfl⟩

/-- A bind on an acceptor that is bound, or whose bind still waits, is
refused at once with a setup failure; it adds the refused cell and changes
nothing else. -/
theorem bind_of_bound {a : Nat} (bound : (w.acceptors[a]?.getD {}).listener.isSome = true) (req : BindRequest) :
    (Machine.bind a req).run w =
      (w.loop.cells.size,
        { w with loop := (w.loop.settledCell (.rejected (Failure.setup "Acceptor is already bound" none))).2 }) := by
  simp only [Machine.bind, bind_run, acceptor_run, bound, if_true, settledCell_run]

/-- A bind on an unbound acceptor creates the next listener, for that
acceptor and request, and waits for its first report on a new cell. -/
theorem bind_of_unbound {a : Nat} (unbound : (w.acceptors[a]?.getD {}).listener = none) (req : BindRequest) :
    ∃ lst, ((Machine.bind a req).run w).1 = lst.bindCell ∧ lst.owner = a ∧ lst.request = req ∧
      Binding ((Machine.bind a req).run w).2 w.listeners.size lst := by
  set created : Listener := ⟨a, req, w.loop.cells.size, false, none, false⟩
  set w' : World :=
    { w with loop := w.loop.fresh.2,
             listeners := w.listeners.push created,
             current := some w.listeners.size,
             acceptors := w.acceptors.modify a fun _ => { w.acceptors[a]?.getD {} with listener := some w.listeners.size } }
  have opened : Binding w' w.listeners.size created :=
    ⟨by simp [w'], rfl, ⟨[], by simp [w', created]⟩⟩
  obtain ⟨lst, binding, cell, owner, request⟩ := listen_binding opened
  have running : (Machine.bind a req).run w = (w.loop.cells.size, ((listen w.listeners.size).run w').2) := by
    simp only [Machine.bind, bind_run, acceptor_run, unbound, Option.isSome_none, Bool.false_eq_true, if_false,
      fresh_run, setAcceptor_run]
    rfl
  rw [running]
  exact ⟨lst, cell.symm, owner, request, binding⟩

end Bind

/-- Binding an acceptor.  An acceptor that is bound, or whose bind still
waits, refuses the bind with a setup failure and changes nothing but the
refused cell.  On an unbound acceptor, whatever its new listener `l`
reports, in whatever order: the bind's cell waits until the first report and
then holds what that report decides, the port the listener reports (or the
requested port when it reports none) or the setup failure that names the
address and the error; an error first leaves the acceptor unbound, so that
it can bind again; and after a report that the listener listens, each later
error is handed to the acceptor as one accept failure, in the order the
errors came, and nothing else happens. -/
theorem bind_settles_by_first_report (w : World) (a : Nat) (req : BindRequest) :
    ((w.acceptors[a]?.getD {}).listener.isSome = true →
      (Machine.bind a req).run w =
        (w.loop.cells.size,
          { w with loop := (w.loop.settledCell (.rejected (Failure.setup "Acceptor is already bound" none))).2 })) ∧
    ((w.acceptors[a]?.getD {}).listener = none → ∀ reports : List Report,
      let bound := (Machine.bind a req).run w
      let after := Report.run w.listeners.size reports bound.2
      after.loop.outcome? bound.1 =
          reports.head?.map (Report.outcome req (bound.2.reportedPort w.listeners.size)) ∧
        (∀ err rest, reports = .error err :: rest → (after.acceptors[a]?.getD {}).listener = none) ∧
        (∀ rest, reports = .ready :: rest →
          after = deliverFailures a (Report.errors rest) (Report.run w.listeners.size [.ready] bound.2))) := by
  refine ⟨fun bound => bind_of_bound bound req, fun unbound reports => ?_⟩
  obtain ⟨lst, cell, owner, request, binding⟩ := bind_of_unbound unbound req
  subst owner request
  have reported : ((Machine.bind lst.owner lst.request).run w).2.reportedPort w.listeners.size = lst.address := by
    simp [World.reportedPort, binding.found]
  dsimp only
  rw [reported, cell]
  cases reports with
  | nil =>
    obtain ⟨ks, waits⟩ := binding.waits
    exact ⟨by simp [Loop.outcome?, waits], by simp, by simp⟩
  | cons first rest =>
    have later := run_of_settled (settled_after_first binding first) rfl rest
    simp only [Report.run_cons, later, List.head?_cons, Option.map_some]
    refine ⟨keeps_deliverFailures _ _ _ _ _ (outcome_after_first binding first), ?_, ?_⟩
    · rintro err rest' ⟨⟩
      rw [listener_deliverFailures]
      exact unbound_after_error binding err
    · rintro rest' ⟨⟩
      rfl

/-- Binding a fresh acceptor whose listener fails before it listens: the
bind holds the failure, and the acceptor is left unbound. -/
theorem bind_settles_by_first_report_on_error :
    let w : World := {}
    let req : BindRequest := { port := 8080 }
    let err := Failure.plain "address in use"
    let bound := (Machine.bind 0 req).run w
    let after := Report.run w.listeners.size [.error err, .ready] bound.2
    (w.acceptors[0]?.getD ({} : Acceptor)).listener = none ∧
      after.loop.outcome? bound.1 = some (Report.outcome req (bound.2.reportedPort w.listeners.size) (.error err)) ∧
      (after.acceptors[0]?.getD ({} : Acceptor)).listener = none := by
  intro w req err bound after
  have unbound : (w.acceptors[0]?.getD ({} : Acceptor)).listener = none := rfl
  obtain ⟨first, failed, -⟩ := (bind_settles_by_first_report w 0 req).2 unbound [.error err, .ready]
  exact ⟨unbound, first, failed err [.ready] rfl⟩

end Machine
end HttpStub
