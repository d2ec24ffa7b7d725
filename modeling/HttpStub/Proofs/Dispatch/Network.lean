import HttpStub.Proofs.Dispatch.Steady

/-!
# The network is steady

Every function of the in-memory network keeps `Steady T sc` for every
weighing `T` and every scene `sc`: endpoints, listeners and acceptors
settle the cells of reads, binds, accepts and replies, which are held by
records and so never kept, they attach no reaction, and every outcome they
settle with is no refusal of a closed acceptor while no acceptor is
closed.  A script's operations on its clients are steady for every
weighing that gives no weight to what the script watches.

Each lemma is one function's triple; `mvcgen` assembles them, and what is
left are the side conditions: that a settled cell is not kept and that an
outcome is clear.
-/

namespace HttpStub

namespace Acceptor

variable (a : Acceptor) (waiter : Async.CellId)

theorem closed_take : (a.take waiter).1.closed = a.closed := by
  unfold take
  split
  · rfl
  · split <;> rfl

theorem ready_take {x : Arrival} (mem : x ∈ (a.take waiter).1.ready) : x ∈ a.ready := by
  unfold take at mem
  split at mem
  · next rest queued => rw [queued]; exact List.mem_cons_of_mem _ mem
  · split at mem <;> exact mem

theorem waiters_take {c : Async.CellId} (mem : c ∈ (a.take waiter).1.waiters) : c ∈ a.waiters ∨ c = waiter := by
  unfold take at mem
  split at mem
  · exact Or.inl mem
  · split at mem
    · exact Or.inl mem
    · simpa using mem

theorem closed_of_refused (refused : (a.take waiter).2 = .refused) : a.closed = true := by
  unfold take at refused
  split at refused
  · cases refused
  · split at refused
    · assumption
    · cases refused

theorem mem_of_arrival {x : Arrival} (taken : (a.take waiter).2 = .arrival x) : x ∈ a.ready := by
  unfold take at taken
  split at taken
  · next y rest queued =>
    cases taken
    rw [queued]
    exact List.mem_cons_self
  · split at taken <;> cases taken

variable (x : Arrival)

theorem closed_place : (a.place x).1.closed = a.closed := by
  unfold place
  split
  · rfl
  · split <;> rfl

theorem ready_place {y : Arrival} (mem : y ∈ (a.place x).1.ready) : y ∈ a.ready ∨ y = x := by
  unfold place at mem
  split at mem
  · exact Or.inl mem
  · split at mem
    · exact Or.inl mem
    · simpa using mem

theorem waiters_place {c : Async.CellId} (mem : c ∈ (a.place x).1.waiters) : c ∈ a.waiters := by
  unfold place at mem
  split at mem
  · exact mem
  · split at mem
    · next w rest queued => rw [queued]; exact List.mem_cons_of_mem _ mem
    · exact mem

theorem mem_of_handed {c : Async.CellId} (handed : (a.place x).2 = .handed c) : c ∈ a.waiters := by
  unfold place at handed
  split at handed
  · cases handed
  · split at handed
    · next w rest queued =>
      cases handed
      rw [queued]
      exact List.mem_cons_self
    · cases handed

end Acceptor

namespace Machine

open Std.Do Async

set_option mvcgen.warning false

variable {β : Type} {T : Reaction → List β} {sc : Scene β}

/-! ## The primitive changes -/

@[spec high] theorem fresh_steady :
    ⦃fun w => ⌜Steady T sc w⌝⦄ fresh ⦃⇓ c w => ⌜Steady T sc w ∧ c ∉ sc.kept⌝⦄ := by
  mvcgen [fresh]
  have steady := ‹Steady T sc _›
  exact ⟨steady.fresh, steady.size_not_kept⟩

@[spec high] theorem settledCell_steady (o : Outcome Value Failure) (clear : Clear o) :
    ⦃fun w => ⌜Steady T sc w⌝⦄ settledCell o ⦃⇓ _ w => ⌜Steady T sc w⌝⦄ := by
  mvcgen [settledCell]
  exact ‹Steady T sc _›.settledCell clear

@[spec high] theorem settle_steady (c : CellId) (o : Outcome Value Failure) (free : c ∉ sc.kept)
    (clear : Clear o) : ⦃fun w => ⌜Steady T sc w⌝⦄ settle c o ⦃⇓ _ w => ⌜Steady T sc w⌝⦄ := by
  mvcgen [settle]
  exact ‹Steady T sc _›.settle free clear

@[spec high] theorem onSettled_steady (c : CellId) (k : Reaction) (silent : T k = []) :
    ⦃fun w => ⌜Steady T sc w⌝⦄ onSettled c k ⦃⇓ _ w => ⌜Steady T sc w⌝⦄ := by
  mvcgen [onSettled]
  exact ‹Steady T sc _›.onSettled c silent

@[spec high] theorem defer_steady (k : Reaction) :
    ⦃fun w => ⌜Steady T sc w⌝⦄ defer k ⦃⇓ _ w => ⌜Steady T sc w⌝⦄ := by
  mvcgen [defer]
  exact ‹Steady T sc _›.defer k

@[spec high] theorem note_steady (n : Notice) :
    ⦃fun w => ⌜Steady T sc w⌝⦄ note n ⦃⇓ _ w => ⌜Steady T sc w⌝⦄ := by
  mvcgen [note]
  have steady := ‹Steady T sc _›
  exact steady.aside rfl rfl rfl rfl rfl

@[spec high] theorem log_steady (level : LogLevel) (message : String) :
    ⦃fun w => ⌜Steady T sc w⌝⦄ log level message ⦃⇓ _ w => ⌜Steady T sc w⌝⦄ := by
  mvcgen [log]

@[spec high] theorem modifyEndpoint_steady (s : Nat) (f : Endpoint → Endpoint)
    (errors : ∀ e x, (f e).lastError = some x → e.lastError = some x ∨ x.kind ≠ .acceptorClosed) :
    ⦃fun w => ⌜Steady T sc w⌝⦄ modifyEndpoint s f ⦃⇓ _ w => ⌜Steady T sc w⌝⦄ := by
  mvcgen [modifyEndpoint]
  exact ‹Steady T sc _›.modifyEndpoint s errors

@[spec high] theorem modifyListener_steady (l : Nat) (f : Listener → Listener)
    (same : ∀ x, (f x).bindCell = x.bindCell) :
    ⦃fun w => ⌜Steady T sc w⌝⦄ modifyListener l f ⦃⇓ _ w => ⌜Steady T sc w⌝⦄ := by
  mvcgen [modifyListener]
  exact ‹Steady T sc _›.modifyListener l same

@[spec high] theorem setAcceptor_steady (a : Nat) (x : Acceptor) (opened : x.closed = false)
    (ready : ∀ f, Arrival.failure f ∈ x.ready → f.kind ≠ .acceptorClosed)
    (waiters : ∀ c ∈ x.waiters, c ∉ sc.kept) :
    ⦃fun w => ⌜Steady T sc w⌝⦄ setAcceptor a x ⦃⇓ _ w => ⌜Steady T sc w⌝⦄ := by
  mvcgen [setAcceptor]
  exact ‹Steady T sc _›.setAcceptor a opened ready fun c mem => Or.inr (waiters c mem)

@[spec high] theorem modifyServer_steady (f : Server → Server) (outline : ∀ s, (f s).outline = s.outline)
    (waiters : ∀ s, ∀ c ∈ (f s).poolWaiters, c ∈ s.poolWaiters ∨ c ∉ sc.kept) :
    ⦃fun w => ⌜Steady T sc w⌝⦄ modifyServer f ⦃⇓ _ w => ⌜Steady T sc w⌝⦄ := by
  mvcgen [modifyServer]
  exact ‹Steady T sc _›.mapServer outline waiters

@[spec high] theorem forM_steady {α : Type} (xs : List α) (f : α → Sim Unit)
    (step : ∀ x ∈ xs, ⦃fun w => ⌜Steady T sc w⌝⦄ f x ⦃⇓ _ w => ⌜Steady T sc w⌝⦄) :
    ⦃fun w => ⌜Steady T sc w⌝⦄ xs.forM f ⦃⇓ _ w => ⌜Steady T sc w⌝⦄ := by
  induction xs with
  | nil =>
    show ⦃fun w => ⌜Steady T sc w⌝⦄ (pure PUnit.unit : Sim PUnit) ⦃⇓ _ w => ⌜Steady T sc w⌝⦄
    mvcgen
  | cons x xs ih =>
    have first := step x List.mem_cons_self
    have rest := ih fun y mem => step y (List.mem_cons_of_mem x mem)
    exact Triple.bind _ _ first fun _ => rest

/-! ## Endpoints -/

@[spec high] theorem settleReader_steady (r : Nat) (o : Outcome Value Failure) (clear : Clear o) :
    ⦃fun w => ⌜Steady T sc w⌝⦄ settleReader r o ⦃⇓ _ w => ⌜Steady T sc w⌝⦄ := by
  unfold settleReader
  mvcgen
  all_goals have steady := ‹Steady T sc _›
  all_goals first
    | exact Steady.reader_not_kept ‹_› steady
    | exact (steady.modifyReader r (by intro; rfl)).cancelTimer _
    | exact steady.modifyReader r (by intro; rfl)

@[spec high] theorem readTimedOut_steady (r : Nat) :
    ⦃fun w => ⌜Steady T sc w⌝⦄ readTimedOut r ⦃⇓ _ w => ⌜Steady T sc w⌝⦄ := by
  unfold readTimedOut
  mvcgen
  simp

@[spec high] theorem hear_steady (s : Nat) (hook : Hook) (signal : Signal) :
    ⦃fun w => ⌜Steady T sc w⌝⦄ hear s hook signal ⦃⇓ _ w => ⌜Steady T sc w⌝⦄ := by
  unfold hear
  mvcgen
  all_goals first
    | exact Steady.reply_not_kept ‹_› ‹_›
    | exact ‹Steady T sc _›.modifyClient _ (by intro; rfl)
    | (have steady := ‹Steady T sc _›; exact steady.aside rfl rfl rfl rfl rfl)
    | simp +contextual [Server.outline, Server.poolWaiters]

@[spec high] theorem hearAll_steady (s : Nat) (hooks : List Hook) (signal : Signal) :
    ⦃fun w => ⌜Steady T sc w⌝⦄ hearAll s hooks signal ⦃⇓ _ w => ⌜Steady T sc w⌝⦄ := by
  unfold hearAll
  mvcgen

@[spec high] theorem send_steady (s : Nat) (chunk : List UInt8) :
    ⦃fun w => ⌜Steady T sc w⌝⦄ send s chunk ⦃⇓ _ w => ⌜Steady T sc w⌝⦄ := by
  unfold send
  mvcgen [writable, endpoint]

@[spec high] theorem sendAndWait_steady (s : Nat) (chunk : List UInt8) :
    ⦃fun w => ⌜Steady T sc w⌝⦄ sendAndWait s chunk ⦃⇓ _ w => ⌜Steady T sc w⌝⦄ := by
  unfold sendAndWait
  mvcgen [writable, endpoint]
  all_goals first
    | exact ‹Steady T sc _›.unrefused.endpoint_getD s _ ‹_›
    | simp

@[spec high] theorem finishWrite_steady (s : Nat) :
    ⦃fun w => ⌜Steady T sc w⌝⦄ finishWrite s ⦃⇓ _ w => ⌜Steady T sc w⌝⦄ := by
  unfold finishWrite
  mvcgen [endpoint]
  exact fun _ _ kept => Or.inl kept

@[spec high] theorem close_steady (s : Nat) :
    ⦃fun w => ⌜Steady T sc w⌝⦄ close s ⦃⇓ _ w => ⌜Steady T sc w⌝⦄ := by
  unfold close
  mvcgen

@[spec high] theorem listenData_steady (s : Nat) (hook : Hook) :
    ⦃fun w => ⌜Steady T sc w⌝⦄ listenData s hook ⦃⇓ _ w => ⌜Steady T sc w⌝⦄ := by
  unfold listenData
  mvcgen [endpoint]
  exact fun _ _ kept => Or.inl kept

@[spec high] theorem listenEnd_steady (s : Nat) (hook : Hook) :
    ⦃fun w => ⌜Steady T sc w⌝⦄ listenEnd s hook ⦃⇓ _ w => ⌜Steady T sc w⌝⦄ := by
  unfold listenEnd
  mvcgen
  exact fun _ _ _ _ kept => Or.inl kept

@[spec high] theorem listenClose_steady (s : Nat) (hook : Hook) :
    ⦃fun w => ⌜Steady T sc w⌝⦄ listenClose s hook ⦃⇓ _ w => ⌜Steady T sc w⌝⦄ := by
  unfold listenClose
  mvcgen
  exact fun _ _ _ _ kept => Or.inl kept

@[spec high] theorem listenError_steady (s : Nat) (hook : Hook) :
    ⦃fun w => ⌜Steady T sc w⌝⦄ listenError s hook ⦃⇓ _ w => ⌜Steady T sc w⌝⦄ := by
  unfold listenError
  mvcgen
  exact fun _ _ _ _ kept => Or.inl kept

@[spec high] theorem arrive_steady (s : Nat) (chunk : List UInt8) :
    ⦃fun w => ⌜Steady T sc w⌝⦄ arrive s chunk ⦃⇓ _ w => ⌜Steady T sc w⌝⦄ := by
  unfold arrive
  mvcgen [endpoint]
  exact fun _ _ kept => Or.inl kept

@[spec high] theorem arriveEnd_steady (s : Nat) :
    ⦃fun w => ⌜Steady T sc w⌝⦄ arriveEnd s ⦃⇓ _ w => ⌜Steady T sc w⌝⦄ := by
  unfold arriveEnd
  mvcgen [endpoint]
  exact fun _ _ kept => Or.inl kept

@[spec high] theorem closeOne_steady (s : Nat) :
    ⦃fun w => ⌜Steady T sc w⌝⦄ closeOne s ⦃⇓ _ w => ⌜Steady T sc w⌝⦄ := by
  unfold closeOne
  mvcgen [endpoint]
  exact fun _ _ kept => Or.inl kept

@[spec high] theorem closeNow_steady (s : Nat) :
    ⦃fun w => ⌜Steady T sc w⌝⦄ closeNow s ⦃⇓ _ w => ⌜Steady T sc w⌝⦄ := by
  unfold closeNow
  mvcgen [endpoint]

@[spec high] theorem fail_steady (s : Nat) (err : Failure) (clear : err.kind ≠ .acceptorClosed) :
    ⦃fun w => ⌜Steady T sc w⌝⦄ fail s err ⦃⇓ _ w => ⌜Steady T sc w⌝⦄ := by
  unfold fail
  mvcgen [endpoint]
  exact fun _ _ recorded => Or.inr (by cases recorded; exact clear)

@[spec high] theorem pair_steady :
    ⦃fun w => ⌜Steady T sc w⌝⦄ pair ⦃⇓ _ w => ⌜Steady T sc w⌝⦄ := by
  unfold pair
  mvcgen
  exact ‹Steady T sc _›.pushEndpoints _ _

/-! ## Acceptors -/

namespace Steady

variable {w : World}

/-- The acceptor the machine reads at `a` is open and queues no refusal,
and what it is left with after an accept or an arrival is too. -/
theorem acceptor_open (steady : Steady T sc w) (a : Nat) : (w.acceptors[a]?.getD {}).closed = false :=
  (steady.unrefused.acceptor_getD a).1

theorem acceptor_ready (steady : Steady T sc w) (a : Nat) :
    ∀ f, Arrival.failure f ∈ (w.acceptors[a]?.getD {}).ready → f.kind ≠ .acceptorClosed :=
  (steady.unrefused.acceptor_getD a).2

theorem take_open (steady : Steady T sc w) (a : Nat) (c : CellId) :
    ((w.acceptors[a]?.getD {}).take c).1.closed = false := by
  rw [Acceptor.closed_take]
  exact (steady.unrefused.acceptor_getD a).1

theorem take_ready (steady : Steady T sc w) (a : Nat) (c : CellId) :
    ∀ f, Arrival.failure f ∈ ((w.acceptors[a]?.getD {}).take c).1.ready → f.kind ≠ .acceptorClosed :=
  fun f mem => (steady.unrefused.acceptor_getD a).2 f (Acceptor.ready_take _ _ mem)

theorem take_waiters (steady : Steady T sc w) (a : Nat) {c : CellId} (free : c ∉ sc.kept) :
    ∀ x ∈ ((w.acceptors[a]?.getD {}).take c).1.waiters, x ∉ sc.kept := fun _ mem =>
  (Acceptor.waiters_take _ _ mem).elim (steady.waiter_not_kept a) (· ▸ free)

theorem not_refused (steady : Steady T sc w) (a : Nat) (c : CellId) :
    ((w.acceptors[a]?.getD {}).take c).2 ≠ .refused := fun refused => by
  have closed := Acceptor.closed_of_refused _ _ refused
  rw [(steady.unrefused.acceptor_getD a).1] at closed
  cases closed

theorem taken_clear (steady : Steady T sc w) (a : Nat) (c : CellId) {f : Failure}
    (taken : ((w.acceptors[a]?.getD {}).take c).2 = .arrival (.failure f)) : f.kind ≠ .acceptorClosed :=
  (steady.unrefused.acceptor_getD a).2 f (Acceptor.mem_of_arrival _ _ taken)

theorem place_open (steady : Steady T sc w) (a : Nat) (x : Arrival) :
    ((w.acceptors[a]?.getD {}).place x).1.closed = false := by
  rw [Acceptor.closed_place]
  exact (steady.unrefused.acceptor_getD a).1

theorem place_ready (steady : Steady T sc w) (a : Nat) {x : Arrival}
    (clear : ∀ f, x = .failure f → f.kind ≠ .acceptorClosed) :
    ∀ f, Arrival.failure f ∈ ((w.acceptors[a]?.getD {}).place x).1.ready → f.kind ≠ .acceptorClosed :=
  fun f mem => (Acceptor.ready_place _ _ mem).elim ((steady.unrefused.acceptor_getD a).2 f)
    fun same => clear f same.symm

theorem place_waiters (steady : Steady T sc w) (a : Nat) (x : Arrival) :
    ∀ c ∈ ((w.acceptors[a]?.getD {}).place x).1.waiters, c ∉ sc.kept := fun _ mem =>
  steady.waiter_not_kept a (Acceptor.waiters_place _ _ mem)

theorem handed_not_kept (steady : Steady T sc w) (a : Nat) (x : Arrival) {c : CellId}
    (handed : ((w.acceptors[a]?.getD {}).place x).2 = .handed c) : c ∉ sc.kept :=
  steady.waiter_not_kept a (Acceptor.mem_of_handed _ _ handed)

end Steady

@[spec high] theorem deliverArrival_steady (a : Nat) (x : Arrival)
    (clear : ∀ f, x = .failure f → f.kind ≠ .acceptorClosed) :
    ⦃fun w => ⌜Steady T sc w⌝⦄ deliverArrival a x ⦃⇓ _ w => ⌜Steady T sc w⌝⦄ := by
  cases x <;> unfold deliverArrival <;> mvcgen [acceptor]
  all_goals first
    | exact ‹Steady T sc _›.place_open a _
    | exact ‹Steady T sc _›.place_ready a clear
    | exact ‹Steady T sc _›.place_waiters a _
    | (have steady := ‹Steady T sc _›; exact fun _ _ => steady.handed_not_kept a _ ‹_›)
    | exact fun _ _ => clear _ ‹_›
    | simp

@[spec high] theorem accept_steady (a : Nat) :
    ⦃fun w => ⌜Steady T sc w⌝⦄ accept a ⦃⇓ _ w => ⌜Steady T sc w⌝⦄ := by
  unfold accept
  mvcgen [acceptor]
  all_goals first
    | exact ‹Steady T sc _ ∧ _›.1
    | exact ‹Steady T sc _ ∧ _›.1.take_open a _
    | exact ‹Steady T sc _ ∧ _›.1.take_ready a _
    | exact ‹Steady T sc _ ∧ _›.1.take_waiters a ‹Steady T sc _ ∧ _›.2
    | exact fun _ _ => ‹Steady T sc _ ∧ _›.1.taken_clear a _ ‹_›
    | exact absurd ‹_› (‹Steady T sc _ ∧ _›.1.not_refused a _)
    | simp

/-- What a listener's bind or error leaves of its acceptor: its waiters,
its queue and that it is open. -/
@[spec high] theorem listenerError_steady (l : Nat) (err : Failure) :
    ⦃fun w => ⌜Steady T sc w⌝⦄ listenerError l err ⦃⇓ _ w => ⌜Steady T sc w⌝⦄ := by
  unfold listenerError
  mvcgen [listener?, acceptor]
  all_goals first
    | exact ‹Steady T sc _›.acceptor_open _
    | exact ‹Steady T sc _›.acceptor_ready _
    | exact fun _ mem => ‹Steady T sc _›.waiter_not_kept _ mem
    | exact fun _ _ => Steady.bindCell_not_kept ‹_› ‹_›
    | exact fun _ same => by cases same <;> simp
    | simp

@[spec high] theorem listenerReady_steady (l : Nat) :
    ⦃fun w => ⌜Steady T sc w⌝⦄ listenerReady l ⦃⇓ _ w => ⌜Steady T sc w⌝⦄ := by
  unfold listenerReady
  mvcgen [listener?, acceptor]
  all_goals first
    | exact ‹Steady T sc _›.acceptor_open _
    | exact ‹Steady T sc _›.acceptor_ready _
    | exact fun _ mem => ‹Steady T sc _›.waiter_not_kept _ mem
    | exact fun _ _ => Steady.bindCell_not_kept ‹_› ‹_›
    | simp

@[spec high] theorem offer_steady (l : Nat) (x : Offer) :
    ⦃fun w => ⌜Steady T sc w⌝⦄ offer l x ⦃⇓ _ w => ⌜Steady T sc w⌝⦄ := by
  unfold offer
  mvcgen [listener?]
  all_goals exact fun _ same => by cases same <;> simp

@[spec high] theorem listen_steady (l : Nat) :
    ⦃fun w => ⌜Steady T sc w⌝⦄ listen l ⦃⇓ _ w => ⌜Steady T sc w⌝⦄ := by
  unfold listen
  mvcgen [listener?]
  all_goals first
    | (have steady := ‹Steady T sc _›; exact steady.aside rfl rfl rfl rfl rfl)
    | simp

@[spec high] theorem bind_steady (a : Nat) (req : BindRequest) :
    ⦃fun w => ⌜Steady T sc w⌝⦄ bind a req ⦃⇓ _ w => ⌜Steady T sc w⌝⦄ := by
  unfold bind
  mvcgen [acceptor]
  all_goals first
    | exact ‹Steady T sc _›.acceptor_open _
    | exact ‹Steady T sc _›.acceptor_ready _
    | exact fun _ mem => ‹Steady T sc _›.waiter_not_kept _ mem
    | exact ‹Steady T sc _ ∧ _›.1.pushListener ‹Steady T sc _ ∧ _›.2 _
    | simp

@[spec high] theorem newAcceptor_steady :
    ⦃fun w => ⌜Steady T sc w⌝⦄ newAcceptor ⦃⇓ _ w => ⌜Steady T sc w⌝⦄ := by
  unfold newAcceptor
  mvcgen
  exact ‹Steady T sc _›.pushAcceptor

@[spec high] theorem listeningNow_steady :
    ⦃fun w => ⌜Steady T sc w⌝⦄ listeningNow ⦃⇓ _ w => ⌜Steady T sc w⌝⦄ := by
  unfold listeningNow
  mvcgen

@[spec high] theorem connect_steady (name : String) :
    ⦃fun w => ⌜Steady T sc w⌝⦄ connect name ⦃⇓ _ w => ⌜Steady T sc w⌝⦄ := by
  unfold connect
  mvcgen
  exact ‹Steady T sc _ ∧ _›.1.pushClient ‹Steady T sc _ ∧ _›.2

@[spec high] theorem injectError_steady (message : String) :
    ⦃fun w => ⌜Steady T sc w⌝⦄ injectError message ⦃⇓ _ w => ⌜Steady T sc w⌝⦄ := by
  unfold injectError
  mvcgen

@[spec high] theorem injectForeign_steady :
    ⦃fun w => ⌜Steady T sc w⌝⦄ injectForeign ⦃⇓ _ w => ⌜Steady T sc w⌝⦄ := by
  unfold injectForeign
  mvcgen

end Machine
end HttpStub
