import HttpStub.Proofs.Dispatch.Network
import HttpStub.Proofs.Pool

/-!
# Handlers, workers and scripts are steady

The stages of a connection handler settle the cells they made themselves,
and attach reactions that pass no work along; a script's operations watch
what they start.  So each of them keeps `Steady T sc` for every weighing
that gives those reactions no weight, provided the cell a stage settles is
not kept and the outcome it resumes with is clear.  A handler, a worker
and a concurrent dispatch also attach what a handler and a sequential
dispatch wait with, so they are steady for weighings that give weight to
the accept loop's own reactions at most.

The accept loop, and a handler and a dispatch in sequential dispatch, are
what moves the work along; they are not here.
-/

namespace HttpStub

theorem WorkerPool.mem_onIdle_waiters {τ ω : Type} {p : WorkerPool τ ω} {x c : ω}
    (mem : c ∈ (p.onIdle x).1.idleWaiters) : c ∈ p.idleWaiters ∨ c = x := by
  rcases WorkerPool.onIdle_cases p x with same | same <;> rw [same] at mem
  · exact Or.inl mem
  · simpa using mem

theorem WorkerPool.mem_finish_waiters {τ ω : Type} {p : WorkerPool τ ω} {c : ω}
    (mem : c ∈ p.finish.1.idleWaiters) : c ∈ p.idleWaiters := by
  rcases WorkerPool.finish_cases p with ⟨_, -, -, same⟩ | ⟨-, -, -, none⟩ | ⟨-, -, -, same⟩
  · rwa [same] at mem
  · simp [none] at mem
  · rwa [same] at mem

theorem WorkerPool.mem_idle_of_finish {τ ω : Type} {p : WorkerPool τ ω} {ws : List ω} {c : ω}
    (finished : p.finish.2 = .idle ws) (mem : c ∈ ws) : c ∈ p.idleWaiters := by
  rcases WorkerPool.finish_cases p with ⟨_, started, -⟩ | ⟨idle, -⟩ | ⟨busy, -⟩
  · rw [finished] at started
    cases started
  · rw [finished] at idle
    cases idle
    exact mem
  · rw [finished] at busy
    cases busy

namespace Machine

open Std.Do Async

set_option mvcgen.warning false

variable {β : Type} {T : Reaction → List β} {sc : Scene β}

/-- What a function that keeps a world steady does to one world. -/
theorem Steady.run {α : Type} {f : Sim α} {P : α → World → Prop}
    (spec : ⦃fun w => ⌜Steady T sc w⌝⦄ f ⦃⇓ a w => ⌜P a w⌝⦄) {w : World} (steady : Steady T sc w) :
    P (f.run w).1 (f.run w).2 := by
  apply StateM.of_wp_run_eq rfl (fun p => P p.1 p.2)
  exact fun _ => spec w steady

/-- A function that keeps a world steady keeps one world steady. -/
theorem Steady.after {α : Type} {f : Sim α} (spec : ⦃fun w => ⌜Steady T sc w⌝⦄ f ⦃⇓ _ w => ⌜Steady T sc w⌝⦄)
    {w : World} (steady : Steady T sc w) : Steady T sc (f.run w).2 :=
  Steady.run (P := fun _ w => Steady T sc w) spec steady

@[spec high] theorem readRaw_steady (s : Nat) (bufferSize timeoutMs : Double) :
    ⦃fun w => ⌜Steady T sc w⌝⦄ readRaw s bufferSize timeoutMs ⦃⇓ _ w => ⌜Steady T sc w⌝⦄ := by
  unfold readRaw
  mvcgen [endpoint]
  all_goals first
    | exact ‹Steady T sc _ ∧ _›.1.pushReader ‹Steady T sc _ ∧ _›.2
    | exact (‹Steady T sc _›.startTimer _ _).modifyReader _ (by intro; rfl)
    | simp

section Stages

variable (calm : ∀ r, r.relays = false → T r = [])
include calm

@[spec high] theorem readRequest_steady (s : Nat) (bufferSize timeoutMs : Double) :
    ⦃fun w => ⌜Steady T sc w⌝⦄ readRequest s bufferSize timeoutMs ⦃⇓ _ w => ⌜Steady T sc w⌝⦄ := by
  unfold readRequest
  mvcgen
  all_goals first
    | exact ‹Steady T sc _ ∧ _›.1
    | exact calm _ rfl

@[spec high] theorem writeResponse_steady (s : Nat) (r : Response) :
    ⦃fun w => ⌜Steady T sc w⌝⦄ writeResponse s r ⦃⇓ _ w => ⌜Steady T sc w⌝⦄ := by
  unfold writeResponse
  mvcgen
  all_goals first
    | exact ‹Steady T sc _ ∧ _›.1
    | exact calm _ rfl

@[spec high] theorem respond_steady (s : Nat) (path : String) (r : Response) (summary : String) :
    ⦃fun w => ⌜Steady T sc w⌝⦄ respond s path r summary ⦃⇓ _ w => ⌜Steady T sc w⌝⦄ := by
  unfold respond
  mvcgen
  all_goals first
    | exact ‹Steady T sc _ ∧ _›.1
    | exact calm _ rfl

@[spec high] theorem serve_steady (s : Nat) :
    ⦃fun w => ⌜Steady T sc w⌝⦄ serve s ⦃⇓ _ w => ⌜Steady T sc w⌝⦄ := by
  unfold serve
  mvcgen
  all_goals first
    | exact ‹Steady T sc _ ∧ _›.1
    | exact calm _ rfl

theorem serveRead_steady (s : Nat) (own : CellId) (o : Outcome Value Failure) (free : own ∉ sc.kept)
    (clear : Clear o) :
    ⦃fun w => ⌜Steady T sc w⌝⦄ serveRead s own o ⦃⇓ _ w => ⌜Steady T sc w⌝⦄ := by
  cases o <;> unfold serveRead <;> mvcgen
  all_goals first
    | exact fun _ _ => free
    | exact fun _ _ => clear
    | exact fun _ _ => calm _ rfl

end Stages

/-! ## Stages that settle their own cell -/

section Own

variable {own : CellId} (free : own ∉ sc.kept)
include free

theorem requestRead_steady (o : Outcome Value Failure) (clear : Clear o) :
    ⦃fun w => ⌜Steady T sc w⌝⦄ requestRead own o ⦃⇓ _ w => ⌜Steady T sc w⌝⦄ := by
  cases o <;> unfold requestRead <;> mvcgen
  all_goals first
    | exact fun _ _ => free
    | exact fun _ _ => clear

theorem writeSent_steady (o : Outcome Value Failure) :
    ⦃fun w => ⌜Steady T sc w⌝⦄ writeSent own o ⦃⇓ _ w => ⌜Steady T sc w⌝⦄ := by
  cases o <;> unfold writeSent <;> mvcgen
  all_goals first
    | exact fun _ _ => free
    | simp

theorem respondWritten_steady (path : String) (status : Double) (summary : String) (o : Outcome Value Failure)
    (clear : Clear o) :
    ⦃fun w => ⌜Steady T sc w⌝⦄ respondWritten path status summary own o ⦃⇓ _ w => ⌜Steady T sc w⌝⦄ := by
  cases o <;> unfold respondWritten <;> mvcgen
  all_goals first
    | exact fun _ _ => free
    | exact fun _ _ => clear_told _
    | exact fun _ _ => clear

theorem serveResponded_steady (o : Outcome Value Failure) (clear : Clear o) :
    ⦃fun w => ⌜Steady T sc w⌝⦄ serveResponded own o ⦃⇓ _ w => ⌜Steady T sc w⌝⦄ := by
  unfold serveResponded
  mvcgen
  exacts [fun _ _ => free, fun _ _ => clear]

theorem handleServed_steady (s : Nat) (o : Outcome Value Failure) :
    ⦃fun w => ⌜Steady T sc w⌝⦄ handleServed s own o ⦃⇓ _ w => ⌜Steady T sc w⌝⦄ := by
  cases o <;> unfold handleServed <;> mvcgen
  all_goals first
    | exact fun _ _ => free
    | simp

end Own

/-! ## The server's bookkeeping -/

@[spec high] theorem dispatcher?_steady :
    ⦃fun w => ⌜Steady T sc w⌝⦄ dispatcher? ⦃⇓ d w => ⌜Steady T sc w ∧ w.server.map (·.dispatcher) = d⌝⦄ := by
  unfold dispatcher?
  mvcgen

@[spec high] theorem pool?_steady :
    ⦃fun w => ⌜Steady T sc w⌝⦄ pool?
    ⦃⇓ p w => ⌜Steady T sc w ∧ ∀ q ∈ p, w.server.map (·.dispatcher) = some (.concurrent q)⌝⦄ := by
  unfold pool?
  mvcgen
  · exact ⟨‹Steady T sc _ ∧ _›.1, fun _ same => by cases same; exact ‹Steady T sc _ ∧ _›.2⟩
  · exact ⟨‹Steady T sc _ ∧ _›.1, fun _ mem => by cases mem⟩

@[spec high] theorem setPool_steady (p : WorkerPool Nat CellId) (concurrent : sc.outline.map Prod.snd = some .concurrent)
    (waiters : ∀ c ∈ p.idleWaiters, c ∉ sc.kept) :
    ⦃fun w => ⌜Steady T sc w⌝⦄ setPool p ⦃⇓ _ w => ⌜Steady T sc w⌝⦄ := by
  unfold setPool modifyServer
  mvcgen
  exact ‹Steady T sc _›.setPool concurrent waiters

@[spec high] theorem drain_steady :
    ⦃fun w => ⌜Steady T sc w⌝⦄ drain ⦃⇓ _ w => ⌜Steady T sc w⌝⦄ := by
  unfold drain
  mvcgen
  all_goals first
    | exact ‹Steady T sc _ ∧ _›.1
    | exact ‹Steady T sc _ ∧ _ ∉ sc.kept›.2
    | exact fun _ _ _ => trivial
    | have found := ‹Steady T sc _ ∧ Option.map _ _ = some (Dispatcher.concurrent _)›
      first
        | exact Steady.mode_of_found found.2 found.1
        | exact fun c mem => (WorkerPool.mem_onIdle_waiters mem).elim (Steady.idle_not_kept found.2 found.1 c)
            fun same => same ▸ ‹Steady T sc _ ∧ _ ∉ sc.kept›.2

@[spec high] theorem track_steady (s : Nat) :
    ⦃fun w => ⌜Steady T sc w⌝⦄ track s ⦃⇓ _ w => ⌜Steady T sc w⌝⦄ := by
  unfold track
  mvcgen [endpoint]
  exacts [fun _ => rfl, fun _ _ mem => Or.inl mem]

@[spec high] theorem start_steady (calm : ∀ r, r.relays = false → T r = []) :
    ⦃fun w => ⌜Steady T sc w⌝⦄ start ⦃⇓ _ w => ⌜Steady T sc w⌝⦄ := by
  unfold start
  mvcgen
  all_goals first
    | exact ‹Steady T sc _ ∧ _›.1
    | exact ‹Steady T sc _ ∧ _ ∉ sc.kept›.2
    | exact fun _ => rfl
    | exact fun _ _ mem => Or.inl mem
    | exact calm _ rfl
    | simp

@[spec high] theorem awaitLoop_steady (calm : ∀ r, r.relays = false → T r = []) (loop : Option CellId) (own : CellId) :
    ⦃fun w => ⌜Steady T sc w⌝⦄ awaitLoop loop own ⦃⇓ _ w => ⌜Steady T sc w⌝⦄ := by
  unfold awaitLoop
  mvcgen
  all_goals first
    | exact calm _ rfl
    | exact fun _ _ => calm _ rfl

theorem stopLoopDone_steady {own : CellId} (free : own ∉ sc.kept) (o : Outcome Value Failure) :
    ⦃fun w => ⌜Steady T sc w⌝⦄ stopLoopDone own o ⦃⇓ _ w => ⌜Steady T sc w⌝⦄ := by
  unfold stopLoopDone
  mvcgen
  exacts [fun _ _ => free, fun _ _ => trivial]

theorem observe_steady (step : Nat) (acceptId : Option String) (o : Outcome Value Failure) :
    ⦃fun w => ⌜Steady T sc w⌝⦄ observe step acceptId o ⦃⇓ _ w => ⌜Steady T sc w⌝⦄ := by
  unfold observe
  mvcgen
  all_goals
    have steady := ‹Steady T sc _›
    exact steady.aside rfl rfl rfl rfl rfl

theorem observeReply_steady (c : Nat) (o : Outcome Value Failure) :
    ⦃fun w => ⌜Steady T sc w⌝⦄ observeReply c o ⦃⇓ _ w => ⌜Steady T sc w⌝⦄ := by
  unfold observeReply
  mvcgen

/-! ## Workers -/

section Workers

variable (calm : ∀ r, r.loops = false → T r = [])
include calm

@[spec high] theorem handle_steady (s : Nat) :
    ⦃fun w => ⌜Steady T sc w⌝⦄ handle s ⦃⇓ _ w => ⌜Steady T sc w⌝⦄ := by
  unfold handle
  mvcgen
  all_goals first
    | exact ‹Steady T sc _ ∧ _›.1
    | exact fun r relays => calm r (Reaction.loops_eq_false relays)
    | exact calm _ rfl

@[spec high] theorem startWorker_steady (s : Nat) :
    ⦃fun w => ⌜Steady T sc w⌝⦄ startWorker s ⦃⇓ _ w => ⌜Steady T sc w⌝⦄ := by
  unfold startWorker
  mvcgen
  exact fun _ _ => calm _ rfl

end Workers

theorem workerDone_steady (worker : sc.outline.map Prod.snd = some .concurrent → ∀ r, r.loops = false → T r = [])
    (o : Outcome Value Failure) :
    ⦃fun w => ⌜Steady T sc w⌝⦄ workerDone o ⦃⇓ _ w => ⌜Steady T sc w⌝⦄ := by
  unfold workerDone
  mvcgen
  all_goals first
    | exact ‹Steady T sc _›
    | exact ‹Steady T sc _ ∧ _›.1
    | exact fun _ _ => trivial
    | have pool := ‹Steady T sc _ ∧ ∀ q ∈ some _, _›
      have found := pool.2 _ rfl
      first
        | exact pool.1
        | exact Steady.mode_of_found found pool.1
        | exact fun c mem => Steady.idle_not_kept found pool.1 c (WorkerPool.mem_finish_waiters mem)
        | exact fun _ _ => worker (Steady.mode_of_found found pool.1)
        | exact fun _ _ => Steady.idle_not_kept found pool.1 _ (WorkerPool.mem_idle_of_finish ‹_› ‹_›)

theorem startBound_steady (a : Nat) {own : CellId} (free : own ∉ sc.kept) (o : Outcome Value Failure)
    (clear : Clear o) (unbound : ∀ p, o ≠ .fulfilled (.port p)) :
    ⦃fun w => ⌜Steady T sc w⌝⦄ startBound a own o ⦃⇓ _ w => ⌜Steady T sc w⌝⦄ := by
  cases o <;> unfold startBound <;> mvcgen
  all_goals first
    | exact (unbound _ ‹_›).elim
    | exact fun _ _ => free
    | exact fun _ _ => clear
    | exact fun _ _ => trivial
    | exact fun _ => rfl
    | exact fun _ _ mem => Or.inl mem

/-- A job keeps the world steady when it is no move of the accept loop and
passes no work along, the cells it settles are not kept, and it resumes
with no refusal; a start resumes so only when its bind gave no port. -/
theorem runJob_steady (calm : ∀ r, r.relays = false → T r = [])
    (worker : sc.outline.map Prod.snd = some .concurrent → ∀ r, r.loops = false → T r = [])
    (j : Job Reaction Value Failure) (quiet : Loop.Job.owed T j = [])
    (looping : ∀ k o, j = .resume k o → k.loops = false)
    (free : ∀ c ∈ Loop.Job.owed Reaction.settles j ++ Loop.Job.tasked Reaction.settles j, c ∉ sc.kept)
    (clear : ∀ k o, j = .resume k o → Clear o)
    (unbound : ∀ a own p, j ≠ .resume (.startBound a own) (.fulfilled (.port p))) :
    ⦃fun w => ⌜Steady T sc w⌝⦄ runJob j ⦃⇓ _ w => ⌜Steady T sc w⌝⦄ := by
  rcases j with ⟨k, o⟩ | k
  · cases k
    case requestRead own =>
      exact requestRead_steady (free own (List.mem_append_left _ List.mem_cons_self)) o (clear _ _ rfl)
    case writeSent own => exact writeSent_steady (free own (List.mem_append_left _ List.mem_cons_self)) o
    case respondWritten s path status summary own =>
      exact respondWritten_steady (free own (List.mem_append_left _ List.mem_cons_self)) path status summary o
        (clear _ _ rfl)
    case serveRead s own =>
      exact serveRead_steady calm s own o (free own (List.mem_append_left _ List.mem_cons_self)) (clear _ _ rfl)
    case serveResponded own =>
      exact serveResponded_steady (free own (List.mem_append_left _ List.mem_cons_self)) o (clear _ _ rfl)
    case handleServed s own => exact handleServed_steady (free own (List.mem_append_left _ List.mem_cons_self)) s o
    case dispatchDone own =>
      show ⦃fun w => ⌜Steady T sc w⌝⦄ settle own o ⦃⇓ _ w => ⌜Steady T sc w⌝⦄
      exact settle_steady own o (free own (List.mem_append_left _ List.mem_cons_self)) (clear _ _ rfl)
    case workerDone => exact workerDone_steady worker o
    case startBound a own =>
      refine startBound_steady a (free own (List.mem_append_left _ List.mem_cons_self)) o (clear _ _ rfl) ?_
      rintro p rfl
      exact unbound a own p rfl
    case loopAccepted => cases looping _ _ rfl
    case loopDispatched => cases looping _ _ rfl
    case stopAcceptorClosed loop own => exact awaitLoop_steady calm loop own
    case stopLoopDone own => exact stopLoopDone_steady (free own (List.mem_append_left _ List.mem_cons_self)) o
    case opSettled step acceptId => exact observe_steady step acceptId o
    case replyClosed c => exact observeReply_steady c o
    all_goals
      unfold runJob
      mvcgen
  · cases k
    case deliver s chunk => exact arrive_steady s chunk
    case deliverEnd s => exact arriveEnd_steady s
    case shut s => exact closeNow_steady s
    case listenDone l => exact listenerReady_steady l
    case listenFailed l err => exact listenerError_steady l err
    case listenerClosed c =>
      show ⦃fun w => ⌜Steady T sc w⌝⦄ settle c (.fulfilled .unit) ⦃⇓ _ w => ⌜Steady T sc w⌝⦄
      exact settle_steady c _ (free c (List.mem_append_right _ List.mem_cons_self)) trivial
    case readTimedOut r => exact readTimedOut_steady r
    all_goals
      unfold runJob
      mvcgen

end Machine

namespace Session

open Std.Do Async Machine

set_option mvcgen.warning false

variable {β : Type} {T : Reaction → List β} {sc : Scene β}

section Script

variable (calm : ∀ r, r.relays = false → T r = [])
include calm

@[spec high] theorem watch_steady (k : Nat) (acceptId : Option String) (c : CellId) :
    ⦃fun w => ⌜Steady T sc w⌝⦄ watch k acceptId c ⦃⇓ _ w => ⌜Steady T sc w⌝⦄ := by
  unfold watch
  mvcgen
  exact calm _ rfl

@[spec high] theorem openClient_steady (name : String) :
    ⦃fun w => ⌜Steady T sc w⌝⦄ openClient name ⦃⇓ _ w => ⌜Steady T sc w⌝⦄ := by
  unfold openClient
  mvcgen
  exact calm _ rfl

end Script

end Session
end HttpStub
