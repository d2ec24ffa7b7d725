import Mathlib
import HttpStub.Proofs.Machine.Moves
import HttpStub.Proofs.Loop

namespace HttpStub
namespace Machine

/-!
# What the network and the handlers leave alone

Most of the machine is the network and the connection handlers: endpoints,
listeners, acceptors, reads and writes.  None of it starts or stops the
server, and none of it touches the server's record but to forget a live
connection once it closes.  The reactions it attaches are its own: the
steps of a handler, and what a script watches.

`Quiet T life L` says that of a world: its server's phase, acceptor and
accept loop are `life`, whatever else of the server changed, and the
reactions weighed by `T` that wait anywhere, on a cell or in the job queue,
are `L` up to order.  Every
function of the network keeps `Quiet T` for every weighing `T`, and every
function of a handler keeps it for every `T` that gives the handler's own
reactions no weight.  Each lemma here is one function's specification, and
`mvcgen` assembles them.
-/

open Std.Do Async

set_option mvcgen.warning false

/-- What of a server makes up its life: its phase, its acceptor and its
accept loop. -/
def Server.life (s : Server) : Phase × Option Nat × Option CellId :=
  (s.phase, s.acceptor, s.loop)

theorem Server.life_eq : Server.life = fun s => (s.phase, s.acceptor, s.loop) := rfl

/-- The reactions by which the server's life goes on: a start waiting for its
bind, and the accept loop waiting for an accept or a dispatch. -/
def Reaction.carriesLife : Reaction → Bool
  | .startBound .. | .loopAccepted .. | .loopDispatched .. => true
  | _ => false

variable {β : Type} (T : Reaction → List β)

/-- A world whose server lives `life`, and whose waiting reactions weigh `L`
under `T`. -/
def Quiet (life : Option (Phase × Option Nat × Option CellId)) (L : Multiset β) (w : World) : Prop :=
  w.server.map Server.life = life ∧ (w.loop.owed T : Multiset β) = L

@[simp] theorem coe_owed_settle (l : Loop Reaction Value Failure) (c : CellId) (o : Outcome Value Failure) :
    ((l.settle c o).owed T : Multiset β) = l.owed T :=
  Multiset.coe_eq_coe.2 (Loop.owed_settle l T c o)

theorem coe_owed_onSettled_silent (l : Loop Reaction Value Failure) (c : CellId) {k : Reaction}
    (silent : T k = []) : ((l.onSettled c k).owed T : Multiset β) = l.owed T :=
  Multiset.coe_eq_coe.2 (Loop.owed_onSettled_silent l T c silent)

variable {T}

theorem forM_keeps {α : Type} (P : World → Prop) (xs : List α) (f : α → Sim Unit)
    (step : ∀ x, ⦃fun w => ⌜P w⌝⦄ f x ⦃⇓ _ w => ⌜P w⌝⦄) :
    ⦃fun w => ⌜P w⌝⦄ xs.forM f ⦃⇓ _ w => ⌜P w⌝⦄ := by
  induction xs with
  | nil => mvcgen
  | cons x xs ih =>
    show ⦃fun w => ⌜P w⌝⦄ (do f x; xs.forM f) ⦃⇓ _ w => ⌜P w⌝⦄
    mvcgen [step, ih]

section Network

/-! ## The network

Endpoints, listeners and acceptors settle cells and queue tasks, but attach
no reaction to any cell, so they keep what waits as it is for every
weighing. -/

variable (life : Option (Phase × Option Nat × Option CellId)) (L : Multiset β)

@[spec] theorem forM_quiet {α : Type} (xs : List α) (f : α → Sim Unit)
    (step : ∀ x, ⦃fun w => ⌜Quiet T life L w⌝⦄ f x ⦃⇓ _ w => ⌜Quiet T life L w⌝⦄) :
    ⦃fun w => ⌜Quiet T life L w⌝⦄ xs.forM f ⦃⇓ _ w => ⌜Quiet T life L w⌝⦄ :=
  forM_keeps _ xs f step

@[spec] theorem settleReader_quiet (r : Nat) (o : Outcome Value Failure) :
    ⦃fun w => ⌜Quiet T life L w⌝⦄ settleReader r o ⦃⇓ _ w => ⌜Quiet T life L w⌝⦄ := by
  mvcgen [settleReader, settle] <;> simp_all +zetaDelta [Quiet]

@[spec] theorem hear_quiet (s : Nat) (hook : Hook) (signal : Signal) :
    ⦃fun w => ⌜Quiet T life L w⌝⦄ hear s hook signal ⦃⇓ _ w => ⌜Quiet T life L w⌝⦄ := by
  mvcgen [hear, settle, modifyServer] <;> simp_all +zetaDelta [Quiet, Server.life_eq, Option.map_map, Function.comp_def]

@[spec] theorem hearAll_quiet (s : Nat) (hooks : List Hook) (signal : Signal) :
    ⦃fun w => ⌜Quiet T life L w⌝⦄ hearAll s hooks signal ⦃⇓ _ w => ⌜Quiet T life L w⌝⦄ := by
  mvcgen [hearAll]

@[spec] theorem send_quiet (s : Nat) (chunk : List UInt8) :
    ⦃fun w => ⌜Quiet T life L w⌝⦄ send s chunk ⦃⇓ _ w => ⌜Quiet T life L w⌝⦄ := by
  mvcgen [send, writable, endpoint, defer]
  simp_all +zetaDelta [Quiet]

@[spec] theorem sendAndWait_quiet (s : Nat) (chunk : List UInt8) :
    ⦃fun w => ⌜Quiet T life L w⌝⦄ sendAndWait s chunk ⦃⇓ _ w => ⌜Quiet T life L w⌝⦄ := by
  mvcgen [sendAndWait, writable, endpoint, settledCell] <;> simp_all +zetaDelta [Quiet]

@[spec] theorem finishWrite_quiet (s : Nat) :
    ⦃fun w => ⌜Quiet T life L w⌝⦄ finishWrite s ⦃⇓ _ w => ⌜Quiet T life L w⌝⦄ := by
  mvcgen [finishWrite, endpoint, modifyEndpoint, defer]
  simp_all +zetaDelta [Quiet]

@[spec] theorem close_quiet (s : Nat) :
    ⦃fun w => ⌜Quiet T life L w⌝⦄ close s ⦃⇓ _ w => ⌜Quiet T life L w⌝⦄ := by
  mvcgen [close, defer]
  simp_all +zetaDelta [Quiet]

@[spec] theorem listenData_quiet (s : Nat) (hook : Hook) :
    ⦃fun w => ⌜Quiet T life L w⌝⦄ listenData s hook ⦃⇓ _ w => ⌜Quiet T life L w⌝⦄ := by
  mvcgen [listenData, endpoint, modifyEndpoint]

@[spec] theorem listenEnd_quiet (s : Nat) (hook : Hook) :
    ⦃fun w => ⌜Quiet T life L w⌝⦄ listenEnd s hook ⦃⇓ _ w => ⌜Quiet T life L w⌝⦄ := by
  mvcgen [listenEnd, modifyEndpoint]

@[spec] theorem listenClose_quiet (s : Nat) (hook : Hook) :
    ⦃fun w => ⌜Quiet T life L w⌝⦄ listenClose s hook ⦃⇓ _ w => ⌜Quiet T life L w⌝⦄ := by
  mvcgen [listenClose, modifyEndpoint]

@[spec] theorem listenError_quiet (s : Nat) (hook : Hook) :
    ⦃fun w => ⌜Quiet T life L w⌝⦄ listenError s hook ⦃⇓ _ w => ⌜Quiet T life L w⌝⦄ := by
  mvcgen [listenError, modifyEndpoint]

@[spec] theorem arrive_quiet (s : Nat) (chunk : List UInt8) :
    ⦃fun w => ⌜Quiet T life L w⌝⦄ arrive s chunk ⦃⇓ _ w => ⌜Quiet T life L w⌝⦄ := by
  mvcgen [arrive, endpoint, modifyEndpoint]

@[spec] theorem arriveEnd_quiet (s : Nat) :
    ⦃fun w => ⌜Quiet T life L w⌝⦄ arriveEnd s ⦃⇓ _ w => ⌜Quiet T life L w⌝⦄ := by
  mvcgen [arriveEnd, endpoint, modifyEndpoint]

@[spec] theorem closeOne_quiet (s : Nat) :
    ⦃fun w => ⌜Quiet T life L w⌝⦄ closeOne s ⦃⇓ _ w => ⌜Quiet T life L w⌝⦄ := by
  mvcgen [closeOne, endpoint, modifyEndpoint]

@[spec] theorem closeNow_quiet (s : Nat) :
    ⦃fun w => ⌜Quiet T life L w⌝⦄ closeNow s ⦃⇓ _ w => ⌜Quiet T life L w⌝⦄ := by
  mvcgen [closeNow, endpoint]

@[spec] theorem fail_quiet (s : Nat) (err : Failure) :
    ⦃fun w => ⌜Quiet T life L w⌝⦄ fail s err ⦃⇓ _ w => ⌜Quiet T life L w⌝⦄ := by
  mvcgen [fail, endpoint, modifyEndpoint]

@[spec] theorem pair_quiet :
    ⦃fun w => ⌜Quiet T life L w⌝⦄ pair ⦃⇓ _ w => ⌜Quiet T life L w⌝⦄ := by
  mvcgen [pair]

@[spec] theorem deliverArrival_quiet (a : Nat) (x : Arrival) :
    ⦃fun w => ⌜Quiet T life L w⌝⦄ deliverArrival a x ⦃⇓ _ w => ⌜Quiet T life L w⌝⦄ := by
  cases x <;> mvcgen [deliverArrival, acceptor, setAcceptor, settle] <;> simp_all +zetaDelta [Quiet]

@[spec] theorem listenerError_quiet (l : Nat) (err : Failure) :
    ⦃fun w => ⌜Quiet T life L w⌝⦄ listenerError l err ⦃⇓ _ w => ⌜Quiet T life L w⌝⦄ := by
  mvcgen [listenerError, listener?, modifyListener, acceptor, setAcceptor, settle]
  simp_all +zetaDelta [Quiet]

@[spec] theorem listenerReady_quiet (l : Nat) :
    ⦃fun w => ⌜Quiet T life L w⌝⦄ listenerReady l ⦃⇓ _ w => ⌜Quiet T life L w⌝⦄ := by
  mvcgen [listenerReady, listener?, modifyListener, acceptor, setAcceptor, settle]
  simp_all +zetaDelta [Quiet]

@[spec] theorem offer_quiet (l : Nat) (x : Offer) :
    ⦃fun w => ⌜Quiet T life L w⌝⦄ offer l x ⦃⇓ _ w => ⌜Quiet T life L w⌝⦄ := by
  cases x <;> mvcgen [offer, listener?]

@[spec] theorem listen_quiet (l : Nat) :
    ⦃fun w => ⌜Quiet T life L w⌝⦄ listen l ⦃⇓ _ w => ⌜Quiet T life L w⌝⦄ := by
  mvcgen [listen, listener?, modifyListener, defer] <;> simp_all +zetaDelta [Quiet]

@[spec] theorem bind_quiet (a : Nat) (req : BindRequest) :
    ⦃fun w => ⌜Quiet T life L w⌝⦄ bind a req ⦃⇓ _ w => ⌜Quiet T life L w⌝⦄ := by
  mvcgen [bind, acceptor, setAcceptor, settledCell, fresh] <;> simp_all +zetaDelta [Quiet]

@[spec] theorem accept_quiet (a : Nat) :
    ⦃fun w => ⌜Quiet T life L w⌝⦄ accept a ⦃⇓ _ w => ⌜Quiet T life L w⌝⦄ := by
  mvcgen [accept, acceptor, setAcceptor, settledCell, fresh] <;> simp_all +zetaDelta [Quiet]

@[spec] theorem closeAcceptor_quiet (a : Nat) :
    ⦃fun w => ⌜Quiet T life L w⌝⦄ closeAcceptor a ⦃⇓ _ w => ⌜Quiet T life L w⌝⦄ := by
  mvcgen [closeAcceptor, acceptor, setAcceptor, settle, settledCell, fresh, modifyListener, defer] <;>
    simp_all +zetaDelta [Quiet]

@[spec] theorem newAcceptor_quiet :
    ⦃fun w => ⌜Quiet T life L w⌝⦄ newAcceptor ⦃⇓ _ w => ⌜Quiet T life L w⌝⦄ := by
  mvcgen [newAcceptor]

@[spec] theorem listeningNow_quiet :
    ⦃fun w => ⌜Quiet T life L w⌝⦄ listeningNow ⦃⇓ _ w => ⌜Quiet T life L w⌝⦄ := by
  mvcgen [listeningNow]

@[spec] theorem connect_quiet (name : String) :
    ⦃fun w => ⌜Quiet T life L w⌝⦄ connect name ⦃⇓ _ w => ⌜Quiet T life L w⌝⦄ := by
  mvcgen [connect, fresh]
  simp_all +zetaDelta [Quiet]

@[spec] theorem injectError_quiet (message : String) :
    ⦃fun w => ⌜Quiet T life L w⌝⦄ injectError message ⦃⇓ _ w => ⌜Quiet T life L w⌝⦄ := by
  mvcgen [injectError]

@[spec] theorem injectForeign_quiet :
    ⦃fun w => ⌜Quiet T life L w⌝⦄ injectForeign ⦃⇓ _ w => ⌜Quiet T life L w⌝⦄ := by
  mvcgen [injectForeign]

@[spec] theorem readTimedOut_quiet (r : Nat) :
    ⦃fun w => ⌜Quiet T life L w⌝⦄ readTimedOut r ⦃⇓ _ w => ⌜Quiet T life L w⌝⦄ := by
  mvcgen [readTimedOut]

@[spec] theorem readRaw_quiet (s : Nat) (bufferSize timeoutMs : Double) :
    ⦃fun w => ⌜Quiet T life L w⌝⦄ readRaw s bufferSize timeoutMs ⦃⇓ _ w => ⌜Quiet T life L w⌝⦄ := by
  mvcgen [readRaw, endpoint, settledCell, fresh] <;> simp_all +zetaDelta [Quiet]

end Network

section Handlers

/-! ## Handlers, workers and watchers

A handler, a worker, the end of a stop and a script's watchers attach
reactions of their own, and a weighing that sees only the reactions that
carry the server's life gives them none. -/

variable (life : Option (Phase × Option Nat × Option CellId)) (L : Multiset β)

@[spec] theorem readRequest_quiet (silent : ∀ r, r.carriesLife = false → T r = [])
    (s : Nat) (bufferSize timeoutMs : Double) :
    ⦃fun w => ⌜Quiet T life L w⌝⦄ readRequest s bufferSize timeoutMs ⦃⇓ _ w => ⌜Quiet T life L w⌝⦄ := by
  mvcgen [readRequest, fresh, onSettled] <;>
    simp_all +zetaDelta [Quiet, coe_owed_onSettled_silent, Reaction.carriesLife]

@[spec] theorem requestRead_quiet (own : CellId) (o : Outcome Value Failure) :
    ⦃fun w => ⌜Quiet T life L w⌝⦄ requestRead own o ⦃⇓ _ w => ⌜Quiet T life L w⌝⦄ := by
  unfold requestRead
  split <;> mvcgen [settle] <;> simp_all +zetaDelta [Quiet]

@[spec] theorem writeResponse_quiet (silent : ∀ r, r.carriesLife = false → T r = [])
    (s : Nat) (r : Response) :
    ⦃fun w => ⌜Quiet T life L w⌝⦄ writeResponse s r ⦃⇓ _ w => ⌜Quiet T life L w⌝⦄ := by
  mvcgen [writeResponse, fresh, onSettled] <;>
    simp_all +zetaDelta [Quiet, coe_owed_onSettled_silent, Reaction.carriesLife]

@[spec] theorem writeSent_quiet (own : CellId) (o : Outcome Value Failure) :
    ⦃fun w => ⌜Quiet T life L w⌝⦄ writeSent own o ⦃⇓ _ w => ⌜Quiet T life L w⌝⦄ := by
  unfold writeSent
  split <;> mvcgen [settle] <;> simp_all +zetaDelta [Quiet]

@[spec] theorem respond_quiet (silent : ∀ r, r.carriesLife = false → T r = [])
    (s : Nat) (path : String) (r : Response) (summary : String) :
    ⦃fun w => ⌜Quiet T life L w⌝⦄ respond s path r summary ⦃⇓ _ w => ⌜Quiet T life L w⌝⦄ := by
  mvcgen [respond, fresh, onSettled] <;>
    simp_all +zetaDelta [Quiet, coe_owed_onSettled_silent, Reaction.carriesLife]

@[spec] theorem respondWritten_quiet (path : String) (status : Double) (summary : String)
    (own : CellId) (o : Outcome Value Failure) :
    ⦃fun w => ⌜Quiet T life L w⌝⦄ respondWritten path status summary own o ⦃⇓ _ w => ⌜Quiet T life L w⌝⦄ := by
  unfold respondWritten
  split <;> mvcgen [settle, log, note] <;> simp_all +zetaDelta [Quiet]

@[spec] theorem serve_quiet (silent : ∀ r, r.carriesLife = false → T r = []) (s : Nat) :
    ⦃fun w => ⌜Quiet T life L w⌝⦄ serve s ⦃⇓ _ w => ⌜Quiet T life L w⌝⦄ := by
  mvcgen [serve, fresh, onSettled] <;>
    simp_all +zetaDelta [Quiet, coe_owed_onSettled_silent, Reaction.carriesLife]

@[spec] theorem serveRead_quiet (silent : ∀ r, r.carriesLife = false → T r = [])
    (s : Nat) (own : CellId) (o : Outcome Value Failure) :
    ⦃fun w => ⌜Quiet T life L w⌝⦄ serveRead s own o ⦃⇓ _ w => ⌜Quiet T life L w⌝⦄ := by
  unfold serveRead
  split <;> mvcgen [settle, log, note, onSettled] <;>
    simp_all +zetaDelta [Quiet, coe_owed_onSettled_silent, Reaction.carriesLife]

@[spec] theorem serveResponded_quiet (own : CellId) (o : Outcome Value Failure) :
    ⦃fun w => ⌜Quiet T life L w⌝⦄ serveResponded own o ⦃⇓ _ w => ⌜Quiet T life L w⌝⦄ := by
  mvcgen [serveResponded, settle]
  simp_all +zetaDelta [Quiet]

@[spec] theorem handle_quiet (silent : ∀ r, r.carriesLife = false → T r = []) (s : Nat) :
    ⦃fun w => ⌜Quiet T life L w⌝⦄ handle s ⦃⇓ _ w => ⌜Quiet T life L w⌝⦄ := by
  mvcgen [handle, fresh, onSettled] <;>
    simp_all +zetaDelta [Quiet, coe_owed_onSettled_silent, Reaction.carriesLife]

@[spec] theorem handleServed_quiet (s : Nat) (own : CellId) (o : Outcome Value Failure) :
    ⦃fun w => ⌜Quiet T life L w⌝⦄ handleServed s own o ⦃⇓ _ w => ⌜Quiet T life L w⌝⦄ := by
  cases o <;> mvcgen [handleServed, settle, log, note] <;> simp_all +zetaDelta [Quiet]

@[spec] theorem startWorker_quiet (silent : ∀ r, r.carriesLife = false → T r = []) (s : Nat) :
    ⦃fun w => ⌜Quiet T life L w⌝⦄ startWorker s ⦃⇓ _ w => ⌜Quiet T life L w⌝⦄ := by
  mvcgen [startWorker, onSettled]
  simp_all +zetaDelta [Quiet, coe_owed_onSettled_silent, Reaction.carriesLife]

@[spec] theorem workerDone_quiet (silent : ∀ r, r.carriesLife = false → T r = [])
    (o : Outcome Value Failure) :
    ⦃fun w => ⌜Quiet T life L w⌝⦄ workerDone o ⦃⇓ _ w => ⌜Quiet T life L w⌝⦄ := by
  mvcgen [workerDone, note, pool?, dispatcher?, setPool, modifyServer, settle] <;>
    simp_all +zetaDelta [Quiet, Server.life_eq, Option.map_map, Function.comp_def]

@[spec] theorem dispatch_quiet (silent : ∀ r, r.carriesLife = false → T r = []) (s : Nat) :
    ⦃fun w => ⌜Quiet T life L w⌝⦄ dispatch s ⦃⇓ _ w => ⌜Quiet T life L w⌝⦄ := by
  mvcgen [dispatch, dispatcher?, fresh, setPool, modifyServer, settledCell, log, note, onSettled] <;>
    simp_all +zetaDelta [Quiet, Server.life_eq, Option.map_map, Function.comp_def,
      coe_owed_onSettled_silent, Reaction.carriesLife]

@[spec] theorem track_quiet (s : Nat) :
    ⦃fun w => ⌜Quiet T life L w⌝⦄ track s ⦃⇓ _ w => ⌜Quiet T life L w⌝⦄ := by
  mvcgen [track, endpoint, modifyServer]
  simp_all +zetaDelta [Quiet, Server.life_eq, Option.map_map, Function.comp_def]

theorem modifyServer_quiet (f : Server → Server) (keeps : ∀ s, (f s).life = s.life) :
    ⦃fun w => ⌜Quiet T life L w⌝⦄ modifyServer f ⦃⇓ _ w => ⌜Quiet T life L w⌝⦄ := by
  mvcgen [modifyServer]
  simp_all +zetaDelta [Quiet, Option.map_map, Function.comp_def]

@[spec] theorem setPool_quiet (p : WorkerPool Nat CellId) :
    ⦃fun w => ⌜Quiet T life L w⌝⦄ setPool p ⦃⇓ _ w => ⌜Quiet T life L w⌝⦄ :=
  modifyServer_quiet life L _ fun _ => rfl

@[spec] theorem drain_quiet :
    ⦃fun w => ⌜Quiet T life L w⌝⦄ drain ⦃⇓ _ w => ⌜Quiet T life L w⌝⦄ := by
  mvcgen [drain, dispatcher?, fresh, setPool, modifyServer, settle, settledCell] <;>
    simp_all +zetaDelta [Quiet, Server.life_eq, Option.map_map, Function.comp_def]

@[spec] theorem awaitLoop_quiet (silent : ∀ r, r.carriesLife = false → T r = [])
    (loop : Option CellId) (own : CellId) :
    ⦃fun w => ⌜Quiet T life L w⌝⦄ awaitLoop loop own ⦃⇓ _ w => ⌜Quiet T life L w⌝⦄ := by
  cases loop <;> mvcgen [awaitLoop, settledCell, onSettled] <;>
    simp_all +zetaDelta [Quiet, coe_owed_onSettled_silent, Reaction.carriesLife]

@[spec] theorem stopLoopDone_quiet (own : CellId) (o : Outcome Value Failure) :
    ⦃fun w => ⌜Quiet T life L w⌝⦄ stopLoopDone own o ⦃⇓ _ w => ⌜Quiet T life L w⌝⦄ := by
  mvcgen [stopLoopDone, note, settle]
  simp_all +zetaDelta [Quiet]

@[spec] theorem observe_quiet (step : Nat) (acceptId : Option String) (o : Outcome Value Failure) :
    ⦃fun w => ⌜Quiet T life L w⌝⦄ observe step acceptId o ⦃⇓ _ w => ⌜Quiet T life L w⌝⦄ := by
  mvcgen [observe, note]

@[spec] theorem observeReply_quiet (c : Nat) (o : Outcome Value Failure) :
    ⦃fun w => ⌜Quiet T life L w⌝⦄ observeReply c o ⦃⇓ _ w => ⌜Quiet T life L w⌝⦄ := by
  mvcgen [observeReply, note]

/-- Every job but the resumption of a reaction that carries the server's life
on is quiet. -/
theorem runJob_quiet (silent : ∀ r, r.carriesLife = false → T r = [])
    (j : Job Reaction Value Failure) (calm : ∀ r o, j = .resume r o → r.carriesLife = false) :
    ⦃fun w => ⌜Quiet T life L w⌝⦄ runJob j ⦃⇓ _ w => ⌜Quiet T life L w⌝⦄ := by
  rcases j with ⟨r, o⟩ | r
  · have calm := calm r o rfl
    cases r <;> simp only [Reaction.carriesLife, Bool.true_eq_false] at calm <;>
      mvcgen [runJob, settle, stopAcceptorClosed] <;> simp_all +zetaDelta [Quiet]
  · cases r <;> mvcgen [runJob, settle]
    simp_all +zetaDelta [Quiet]

@[spec] theorem beginStep_quiet (k : Nat) :
    ⦃fun w => ⌜Quiet T life L w⌝⦄ Session.beginStep k ⦃⇓ _ w => ⌜Quiet T life L w⌝⦄ := by
  mvcgen [Session.beginStep]

@[spec] theorem watch_quiet (silent : ∀ r, r.carriesLife = false → T r = [])
    (k : Nat) (acceptId : Option String) (c : CellId) :
    ⦃fun w => ⌜Quiet T life L w⌝⦄ Session.watch k acceptId c ⦃⇓ _ w => ⌜Quiet T life L w⌝⦄ := by
  mvcgen [Session.watch, onSettled]
  simp_all +zetaDelta [Quiet, coe_owed_onSettled_silent, Reaction.carriesLife]

@[spec] theorem openClient_quiet (silent : ∀ r, r.carriesLife = false → T r = []) (name : String) :
    ⦃fun w => ⌜Quiet T life L w⌝⦄ Session.openClient name ⦃⇓ _ w => ⌜Quiet T life L w⌝⦄ := by
  mvcgen [Session.openClient, onSettled]
  simp_all +zetaDelta [Quiet, coe_owed_onSettled_silent, Reaction.carriesLife]

@[spec] theorem clientOp_quiet (silent : ∀ r, r.carriesLife = false → T r = [])
    (op : Session.ClientOp) :
    ⦃fun w => ⌜Quiet T life L w⌝⦄ op.run ⦃⇓ _ w => ⌜Quiet T life L w⌝⦄ := by
  cases op <;> mvcgen [Session.ClientOp.run, Session.withClient, endpoint]

theorem dispatcherFor_quiet (config : ServerConfig) :
    ⦃fun w => ⌜Quiet T life L w⌝⦄ Session.Server.dispatcherFor config ⦃⇓ _ w => ⌜Quiet T life L w⌝⦄ := by
  mvcgen [Session.Server.dispatcherFor, settledCell]
  simp_all +zetaDelta [Quiet]

end Handlers

/-- What a function that keeps `Quiet T` does to one world. -/
theorem Quiet.run {α : Type} {f : Sim α} {life : Option (Phase × Option Nat × Option CellId)}
    {L : Multiset β} (spec : ⦃fun w => ⌜Quiet T life L w⌝⦄ f ⦃⇓ _ w => ⌜Quiet T life L w⌝⦄)
    {w : World} (quiet : Quiet T life L w) : Quiet T life L (f.run w).2 := by
  apply StateM.of_wp_run_eq rfl (fun p => Quiet T life L p.2)
  exact fun _ => spec w quiet

/-- Attaching a reaction adds its weight when the cell exists, and nothing
when it does not. -/
theorem coe_owed_onSettled (l : Loop Reaction Value Failure) (c : CellId) (k : Reaction) :
    ∃ E ≤ (T k : Multiset β), ((l.onSettled c k).owed T : Multiset β) = l.owed T + E := by
  by_cases inside : c < l.cells.size
  · exact ⟨T k, le_rfl, by simpa using Multiset.coe_eq_coe.2 (Loop.owed_onSettled l T inside k)⟩
  · refine ⟨0, Multiset.zero_le _, ?_⟩
    unfold Loop.onSettled
    rw [Array.getElem?_eq_none (Nat.le_of_not_lt inside)]
    simp

end Machine
end HttpStub
