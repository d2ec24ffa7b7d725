import HttpStub.Proofs.Custody.Handlers
import HttpStub.Proofs.Pool

/-!
# The server keeps every connection in custody

The accept loop, the dispatchers and the worker pool keep `Sound`.  A
connection the accept loop is resumed with is in hand: it is closed when the
server was stopped, and otherwise becomes live before it is dispatched.  A
dispatch starts a handler, which only a server that was not stopped does;
a worker that finishes after a stop finds the queue empty and starts none.

Starting binds a new acceptor, which the server then answers for; a start
whose bind failed gives the acceptor up, and a failed bind left its
listener deaf, so nothing is queued there.
-/

namespace HttpStub
namespace Machine

open Async

namespace Sound

variable {h : List CellId} {socks : List Nat} {js : List (Job Reaction Value Failure)}
  {S : Stage} {keep : Option Nat} {T : List Nat} {w : World}

/-- While the server answers for no acceptor, none is claimed. -/
theorem unclaimed (sound : Sound h socks js S keep T w) (none : keep = none) : w.Unclaimed := by
  refine ⟨fun l mem listens acc found => ?_, fun a acc found => ?_⟩
  · cases open_ : acc.closed
    · have serves := sound.serving l mem listens acc found open_
      rw [none] at serves
      cases serves
    · rfl
  · by_contra queued
    obtain ⟨mine, -⟩ := sound.ready a acc found queued
    rw [none] at mine
    cases mine

/-- A server stopped with nothing left to let go of. -/
theorem halt (sound : Sound h socks js S keep T w) (unclaimed : keep = none ∨ w.Unclaimed)
    (called : S ≠ .running)
    (stopped : ∀ s ∈ w.server, s.phase = .stopped ∧ s.live = [] ∧ s.acceptor = none ∧ s.poolQueue = []) :
    Sound h socks js .halted none T w := by
  refine sound.rekeep .halted none T (unclaimed.imp Eq.symm id) (fun _ _ => Or.inl rfl) (fun _ => ?_) (fun _ => ⟨rfl, stopped⟩)
    fun _ => sound.quelled called
  cases found : w.server with
  | none => simp [World.serverAcceptor, found]
  | some s => simp [World.serverAcceptor, found, (stopped s found).2.2.1]

/-- A server that is there and was not stopped had no stop run to its end. -/
theorem awake (sound : Sound h socks js S keep T w)
    (awake : ¬ ((w.server.map (·.phase == .stopped)).getD true) = true) :
    S ≠ .halted ∧ w.server.isSome = true := by
  cases found : w.server with
  | none => simp [found] at awake
  | some srv =>
    simp only [found, Option.map_some, Option.getD_some, beq_iff_eq] at awake
    exact ⟨fun halted => awake ((sound.stopped halted).2 srv found).1, rfl⟩

end Sound

section Server

variable {h : List CellId} {socks : List Nat} {js : List (Job Reaction Value Failure)}
  {S : Stage} {keep : Option Nat} {T : List Nat}

/-! ## The server's record -/

/-- Changing the server but for its acceptor, its live connections, its
pool's queue and its idle waiters, of which it may drop some; a stopped
server stays stopped. -/
theorem modifyServer_sound (f : Server → Server)
    (waiters : ∀ s c, (f s).poolWaiters.count c ≤ s.poolWaiters.count c)
    (acceptor : ∀ s, (f s).acceptor = s.acceptor) (live : ∀ s, (f s).live = s.live)
    (stays : S = .halted → ∀ s, s.phase = .stopped → s.poolQueue = [] →
      (f s).phase = .stopped ∧ (f s).poolQueue = []) :
    Holds (Sound h socks js S keep T) (modifyServer f) (fun _ => Sound h socks js S keep T) := by
  intro w sound
  rw [modifyServer_run]
  cases found : w.server with
  | none => exact sound.aside rfl rfl rfl rfl rfl (by rw [found]; rfl) rfl
  | some srv =>
    refine sound.setServer found (f srv) (fun c => by simpa using waiters srv c) (Or.inl rfl) sound.starting
      (fun moving => ?_) (fun halted => ?_) (fun x was gone => absurd (by rw [live]; exact was) gone)
      (fun _ mem => mem)
    · rw [acceptor]
      simpa [World.serverAcceptor, found] using sound.kept moving
    · obtain ⟨none, rest⟩ := sound.stopped halted
      obtain ⟨phase, empty, free, queue⟩ := rest srv found
      obtain ⟨phase', queue'⟩ := stays halted srv phase queue
      exact ⟨none, phase', by rw [live, empty], by rw [acceptor, free], queue'⟩

theorem setPhase_sound (p : Phase) (stays : S = .halted → p = .stopped) :
    Holds (Sound h socks js S keep T) (setPhase p) (fun _ => Sound h socks js S keep T) :=
  modifyServer_sound _ (fun _ _ => le_rfl) (fun _ => rfl) (fun _ => rfl) fun halted _ _ queue =>
    ⟨stays halted, queue⟩

/-- Replacing the pool: idle waiters it releases go to the hand; after a
stop its queue stays empty. -/
theorem setPool_sound {p : WorkerPool Nat CellId} (p' : WorkerPool Nat CellId) {h' : List CellId}
    (waiters : ∀ c, (p'.idleWaiters ++ h').count c ≤ (p.idleWaiters ++ h).count c)
    (queue : S = .halted → p'.queue = []) :
    Holds (fun w => Sound h socks js S keep T w ∧ ∃ srv, w.server = some srv ∧ srv.dispatcher = .concurrent p)
      (setPool p') (fun _ => Sound h' socks js S keep T) := by
  rintro w ⟨sound, srv, found, pooled⟩
  show Sound h' socks js S keep T { w with server := w.server.map _ }
  rw [found, Option.map_some]
  refine sound.setServer found _ (fun c => ?_) (Or.inl rfl) sound.starting (fun moving => ?_) (fun halted => ?_)
    (fun x was gone => absurd was gone) (fun _ mem => mem)
  · simpa [Server.poolWaiters, pooled] using waiters c
  · simpa [World.serverAcceptor, found] using sound.kept moving
  · obtain ⟨none, rest⟩ := sound.stopped halted
    obtain ⟨phase, empty, free, -⟩ := rest srv found
    exact ⟨none, phase, empty, free, by simp [Server.poolQueue, queue halted]⟩

theorem pool?_run (w : World) : ∃ r, pool?.run w = (r, w) ∧
    ∀ p, r = some p → ∃ srv, w.server = some srv ∧ srv.dispatcher = .concurrent p := by
  unfold pool? dispatcher?
  simp only [bind_run, get_run]
  cases found : w.server with
  | none => exact ⟨none, rfl, fun _ none => by cases none⟩
  | some srv =>
    cases pooled : srv.dispatcher with
    | concurrent p =>
      refine ⟨some p, by simp [pooled]; rfl, fun p' same => ⟨srv, rfl, by cases same; exact pooled⟩⟩
    | sequential c => exact ⟨none, by simp [pooled]; rfl, fun _ none => by cases none⟩

/-! ## The accept loop -/

theorem startWorker_sound (s : Nat) (running : S = .running) :
    Holds (Sound h socks js S keep T) (startWorker s) (fun _ => Sound h socks js S keep T) :=
  Holds.bind (handle_sound s running) fun done =>
    onSettled_stage_sound done .workerDone (fun _ _ same => by cases same) rfl

theorem track_sound (s : Nat) (awake : S ≠ .halted) :
    Holds (fun w => Sound h (s :: socks) js S keep T w ∧ w.server.isSome = true) (track s)
      (fun _ => Sound h socks js S keep T) := by
  unfold track
  refine Holds.bind (Holds.reads _ (endpoint_run · s)) fun e => ?_
  split
  · next closed =>
    rintro w ⟨⟨sound, -⟩, rfl⟩
    have exists_ : w.sockets[s]? ≠ none := fun missing => by simp [missing] at closed
    obtain ⟨e, found⟩ := Option.ne_none_iff_exists'.1 exists_
    exact sound.let_go (Or.inl (by simpa [World.isClosed, found] using closed))
  · rintro w ⟨⟨sound, there⟩, -⟩
    obtain ⟨srv, found⟩ := Option.isSome_iff_exists.1 there
    let live := if srv.live.contains s then srv.live else srv.live ++ [s]
    have tracked : Sound h (s :: socks) js S keep T { w with server := some { srv with live } } :=
      sound.setServer found _ (fun _ => le_rfl) (Or.inl rfl) sound.starting
        (fun moving => by simpa [World.serverAcceptor, found] using sound.kept moving)
        (fun halted => absurd halted awake)
        (fun x was gone => absurd (by simp only [live]; split <;> simp [was]) gone) (fun _ mem => mem)
    have placed : s ∈ ({ w with server := some { srv with live } } : World).live := by
      simp only [World.live, Option.map_some, Option.getD_some, live]
      split
      · next mem => simpa using mem
      · simp
    rw [bind_run, modifyServer_run, found, Option.map_some]
    exact listenClose_sound s .tracker _ (tracked.let_go (Or.inr (Or.inl placed)))

/-- Dispatching starts a handler at once, queues the connection for a
worker, or closes it when the pool's queue is full. -/
theorem dispatch_sound (s : Nat) (running : S = .running) :
    Holds (Sound h socks js S keep T) (dispatch s) (fun _ => Sound h socks js S keep T) := by
  unfold dispatch
  refine Holds.bind (Holds.reads (fun w => w.server.map (·.dispatcher)) fun _ => rfl) fun d => ?_
  split
  · next p =>
    rintro w ⟨sound, same⟩
    obtain ⟨srv, found, pooled⟩ : ∃ srv, w.server = some srv ∧ srv.dispatcher = .concurrent p := by
      cases found : w.server with
      | none => simp [found] at same
      | some srv => exact ⟨srv, rfl, by simpa [found] using same.symm⟩
    have waiters := p.submit_waiters s
    generalize p.submit s = submitted at waiters ⊢
    obtain ⟨p', admission⟩ := submitted
    dsimp only
    rw [bind_run]
    refine (?_ : Holds (Sound h socks js S keep T) _ fun _ => Sound h socks js S keep T) _
      (setPool_sound p' (fun c => le_of_eq (by rw [waiters])) (fun halted => by rw [running] at halted; cases halted)
        w ⟨sound, srv, found, pooled⟩)
    have answered : Holds (Sound h socks js S keep T) (settledCell (.fulfilled .unit))
        (fun _ => Sound h socks js S keep T) :=
      (settledCell_sound _).weaken fun _ _ post => post.1
    split
    · exact Holds.bind (startWorker_sound _ running) fun _ => answered
    · exact answered
    · exact Holds.bind (log_sound _ _) fun _ => Holds.bind (close_sound s) fun _ => answered
  · refine Holds.strengthen ?_ fun _ pre => pre.1
    refine Holds.bind fresh_sound fun own => ?_
    refine Holds.bind ((handle_sound s running).strengthen fun _ pre => pre.1) fun done => ?_
    refine Holds.bind (modifyServer_sound _ (fun srv c => ?_) (fun _ => rfl) (fun _ => rfl)
      fun halted => by rw [running] at halted; cases halted) fun _ => ?_
    · simp [Server.poolWaiters]
    · exact Holds.bind (onSettled_stage_sound done (.dispatchDone own) (fun _ _ same => by cases same) rfl)
        fun _ => Holds.pure fun _ sound => sound

/-- A round of the accept loop ends it when the server was stopped, and
otherwise waits for the next connection. -/
theorem loopRound_sound (a : Nat) (own : CellId) :
    Holds (Sound (own :: h) socks js S keep T) (loopRound a own) (fun _ => Sound h socks js S keep T) := by
  unfold loopRound
  refine Holds.bind (Holds.reads _ stopped_run) fun done => ?_
  split
  · exact Holds.bind ((setPhase_sound .stopped fun _ => rfl).strengthen fun _ pre => pre.1) fun _ =>
      settle_sound own _
  · next awake =>
    rintro w ⟨sound, rfl⟩
    have live := (sound.awake awake).1
    exact (Holds.bind (setPhase_sound .accepting fun halted => absurd halted live) fun _ => accept_sound a own)
      w sound

/-- The accept loop resumes with a connection in hand: it closes it when the
server was stopped, and otherwise tracks and dispatches it. -/
theorem loopAccepted_socket_sound (a : Nat) (own : CellId) (s : Nat) (calm : S ≠ .stopping) :
    Holds (Sound (own :: h) (s :: socks) js S keep T) (loopAccepted a own (.fulfilled (.socket s)))
      (fun _ => Sound h socks js S keep T) := by
  simp only [loopAccepted]
  refine Holds.bind (Holds.reads _ stopped_run) fun done => ?_
  split
  · refine Holds.bind ((close_held_sound s).strengthen fun _ pre => pre.1) fun _ => ?_
    exact Holds.bind (setPhase_sound .stopped fun _ => rfl) fun _ => settle_sound own _
  · next awake =>
    rintro w ⟨sound, rfl⟩
    obtain ⟨live, there⟩ := sound.awake awake
    have running : S = .running := by
      cases S
      · rfl
      · exact absurd rfl calm
      · exact absurd rfl live
    have dispatching := (@setPhase_sound (own :: h) (s :: socks) js S keep T .dispatching
      fun halted => absurd halted live).frame
      (fun w => w.server.isSome) (fun w => Option.isSome_map) (· = true)
    exact (Holds.bind dispatching fun _ => Holds.bind (track_sound s live) fun _ =>
      Holds.bind (dispatch_sound s running) fun d =>
        onSettled_stage_sound d (.loopDispatched a own) (fun _ _ same => by cases same) rfl) w ⟨sound, there⟩

end Server

end Machine
end HttpStub
