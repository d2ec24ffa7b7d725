import HttpStub.Proofs.Custody.Server

/-!
# Every job keeps every connection in custody

The jobs the loop runs resume the reactions the machine attached to its
cells.  Each reaction keeps `Sound` with the cells it settles in hand: a
worker that finishes starts the next queued connection only while no stop
was called, since a stop empties the pool's queue; the accept loop goes on
or ends; a start that bound its acceptor starts the accept loop, and one
whose bind failed gives the acceptor up; and a stop, resumed, waits for the
accept loop and then announces the close.
-/

namespace HttpStub
namespace Machine

open Async

section Jobs

variable {h : List CellId} {socks : List Nat} {js : List (Job Reaction Value Failure)}
  {S : Stage} {keep : Option Nat} {T : List Nat}

/-- Reading the pool, the rest of a computation may assume that what it read
is the pool of the server's concurrent dispatcher. -/
theorem Holds.pool_bind {α : Type} {P : World → Prop} {Q : α → World → Prop}
    {rest : Option (WorkerPool Nat CellId) → Sim α}
    (holds : ∀ r, Holds (fun w => P w ∧ ∀ p, r = some p → ∃ srv, w.server = some srv ∧
      srv.dispatcher = .concurrent p) (rest r) Q) :
    Holds P (pool? >>= rest) Q := by
  intro w pre
  obtain ⟨r, ran, pooled⟩ := pool?_run w
  rw [bind_run, ran]
  exact holds r w ⟨pre, pooled⟩

namespace Sound

variable {w : World}

/-- While a start whose bind failed is still in progress, nothing is
claimed: its listener never listened, and unless stopped only it could
have. -/
theorem unclaimed_of_refused (sound : Sound h socks js S keep T w) {a : Nat}
    (mine : S = .halted ∨ keep = some a) {l : Listener} (l_mem : l ∈ w.listeners.toList) (owner : l.owner = a)
    {f : Failure} (refused : w.loop.outcome? l.bindCell = some (.rejected f)) : w.Unclaimed := by
  rcases mine with halted | mine
  · exact sound.unclaimed (sound.stopped halted).1
  obtain ⟨i, at_i⟩ := Array.mem_iff_getElem?.1 (Array.mem_toList_iff.1 l_mem)
  have only : ∀ l' ∈ w.listeners.toList, l'.owner = a → l' = l := by
    intro l' mem' owner'
    obtain ⟨i', at_i'⟩ := Array.mem_iff_getElem?.1 (Array.mem_toList_iff.1 mem')
    have same := sound.unique i' i l' l at_i' at_i (owner'.trans owner.symm)
    subst same
    rw [at_i] at at_i'
    exact (Option.some.inj at_i').symm
  have deaf : l.listening = false := by
    cases listens : l.listening
    · rfl
    · rcases sound.listening i l at_i listens with ⟨v, fulfilled⟩ | ⟨none, -⟩
      · rw [refused] at fulfilled
        cases fulfilled
      · rw [refused] at none
        cases none
  refine ⟨fun l' mem' listens acc found => ?_, fun a' acc found => ?_⟩
  · cases open_ : acc.closed
    · have serves := sound.serving l' mem' listens acc found open_
      rw [mine] at serves
      rw [only l' mem' (Option.some.inj serves).symm, deaf] at listens
      cases listens
    · rfl
  · by_contra queued
    obtain ⟨mine', l', mem', owner', heard⟩ := sound.ready a' acc found queued
    rw [mine] at mine'
    rw [only l' mem' (owner'.trans (Option.some.inj mine').symm)] at heard
    rcases heard with listens | ⟨v, fulfilled⟩
    · rw [deaf] at listens
      cases listens
    · rw [refused] at fulfilled
      cases fulfilled

end Sound

/-- A worker that finishes starts the next queued connection, of which a
stopped server has none, or releases the pool's idle waiters. -/
theorem workerDone_sound (o : Outcome Value Failure) (calm : S ≠ .stopping) :
    Holds (Sound h socks js S keep T) (workerDone o) (fun _ => Sound h socks js S keep T) := by
  unfold workerDone
  extract_lets finishing
  have after : ∀ v, Holds (Sound h socks js S keep T) (finishing v) (fun _ => Sound h socks js S keep T) := by
    intro v
    refine Holds.pool_bind fun r => ?_
    rcases r with _ | p
    · exact Holds.pure fun _ pre => pre.1
    rintro w ⟨sound, pooled⟩
    dsimp only
    obtain ⟨srv, found, concurrent⟩ := pooled p rfl
    have pre : Sound h socks js S keep T w ∧ ∃ srv, w.server = some srv ∧ srv.dispatcher = .concurrent p :=
      ⟨sound, srv, found, concurrent⟩
    rcases WorkerPool.finish_cases p with ⟨next, started, queued, kept⟩ | ⟨idle, -, emptied, released⟩ |
      ⟨busy, -, emptied, kept⟩
    · have running : S = .running := by
        cases S
        · rfl
        · exact absurd rfl calm
        · obtain ⟨-, stopped⟩ := sound.stopped rfl
          have empty := (stopped srv found).2.2.2
          simp [Server.poolQueue, concurrent, queued] at empty
      rw [show p.finish = (p.finish.1, .start next) from Prod.ext rfl started]
      exact (Holds.bind (setPool_sound _ (fun c => le_of_eq (by rw [kept]))
        fun halted => by rw [running] at halted; cases halted) fun _ => startWorker_sound next running) w pre
    · rw [show p.finish = (p.finish.1, .idle p.idleWaiters) from Prod.ext rfl idle]
      exact (Holds.bind (setPool_sound _ (fun c => by rw [released, List.nil_append]) fun _ => emptied :
          Holds _ _ fun _ => Sound (p.idleWaiters ++ h) socks js S keep T) fun _ =>
          Holds.forM (fun rest => Sound (rest ++ h) socks js S keep T) fun x _ => settle_sound x _) w pre
    · rw [show p.finish = (p.finish.1, .busy) from Prod.ext rfl busy]
      exact (Holds.bind (setPool_sound _ (fun c => le_of_eq (by rw [kept])) fun _ => emptied) fun _ =>
        Holds.pure fun _ sound => sound) w pre
  clear_value finishing
  cases o with
  | rejected f => exact Holds.bind (note_sound _) fun _ => after _
  | fulfilled v => exact after _

/-- The accept loop resumes after an accept that brought no connection: a
closed acceptor ends it, and any other failure is reported and the loop goes
on. -/
theorem loopAccepted_other_sound (a : Nat) (own : CellId) (o : Outcome Value Failure)
    (other : ∀ s, o ≠ .fulfilled (.socket s)) :
    Holds (Sound (own :: h) socks js S keep T) (loopAccepted a own o) (fun _ => Sound h socks js S keep T) := by
  cases o with
  | rejected f =>
    simp only [loopAccepted]
    split
    · exact Holds.bind (setPhase_sound .stopped fun _ => rfl) fun _ => settle_sound own _
    · exact Holds.bind (log_sound _ _) fun _ => Holds.bind (note_sound _) fun _ => loopRound_sound a own
  | fulfilled v =>
    cases v with
    | socket s => exact absurd rfl (other s)
    | _ => exact settle_sound own _

/-- The accept loop resumes after a dispatch: it goes on, or ends when the
dispatch failed. -/
theorem loopDispatched_sound (a : Nat) (own : CellId) (o : Outcome Value Failure) :
    Holds (Sound (own :: h) socks js S keep T) (loopDispatched a own o) (fun _ => Sound h socks js S keep T) := by
  cases o with
  | fulfilled v => exact loopRound_sound a own
  | rejected f => exact settle_sound own _

theorem acceptLoop_sound (a : Nat) :
    Holds (Sound h socks js S keep T) (acceptLoop a) (fun _ => Sound h socks js S keep T) :=
  Holds.bind fresh_sound fun own => Holds.bind ((loopRound_sound a own).strengthen fun _ pre => pre.1) fun _ =>
    Holds.pure fun _ sound => sound

theorem awaitLoop_sound (loop : Option CellId) (own : CellId) :
    Holds (Sound (own :: h) socks js S keep T) (awaitLoop loop own) (fun _ => Sound h socks js S keep T) := by
  unfold awaitLoop
  intro w sound
  cases loop with
  | some l => exact onSettled_sound l (.stopLoopDone own) (fun _ _ same => by cases same) (fun _ => rfl) w sound
  | none =>
    exact (Holds.bind ((settledCell_sound _).weaken fun _ _ post => post.1) fun c =>
      onSettled_sound c (.stopLoopDone own) (fun _ _ same => by cases same) fun _ => rfl) w sound

theorem stopLoopDone_sound (own : CellId) (o : Outcome Value Failure) :
    Holds (Sound (own :: h) socks js S keep T) (stopLoopDone own o) (fun _ => Sound h socks js S keep T) :=
  Holds.bind (note_sound _) fun _ => settle_sound own _

theorem observe_sound (step : Nat) (acceptId : Option String) (o : Outcome Value Failure) :
    Holds (Sound h socks js S keep T) (observe step acceptId o) (fun _ => Sound h socks js S keep T) := by
  unfold observe
  extract_lets recording
  have after : ∀ v, Holds (Sound h socks js S keep T) (recording v) (fun _ => Sound h socks js S keep T) := by
    intro v w sound
    show Sound h socks js S keep T ((if (w.step == step) = true then set { w with stepOutcome := some o }
      else note (.late step o)).run w).2
    split
    · exact sound.aside rfl rfl rfl rfl rfl rfl rfl
    · exact note_sound _ w sound
  clear_value recording
  intro w sound
  split
  · exact (Holds.bind (Holds.modify fun _ sound => sound.aside rfl rfl rfl rfl rfl rfl rfl) fun _ => after _)
      w sound
  · exact after _ w sound

theorem observeReply_sound (c : Nat) (o : Outcome Value Failure) :
    Holds (Sound h socks js S keep T) (observeReply c o) (fun _ => Sound h socks js S keep T) := by
  unfold observeReply
  refine Holds.reads_bind _ (fun _ => rfl) fun w' => ?_
  split
  · split <;> exact note_sound _
  · exact Holds.pure fun _ sound => sound

/-- A start resumes after its bind: with a port it starts the accept loop and
records it; a bind that failed gives the acceptor up, and with it the
server's claim. -/
theorem startBound_sound (a : Nat) (own : CellId) (o : Outcome Value Failure) :
    Holds (Sound (own :: h) socks (.resume (.startBound a own) o :: js) S keep T) (startBound a own o)
      (fun _ w => ∃ keep', Sound h socks js S keep' T w) := by
  intro w sound
  have dropped : Sound (own :: h) socks js S keep T w :=
    sound.drop (fun _ same => by cases same) (fun _ _ _ same => by cases same) fun _ same => by cases same
  cases o with
  | fulfilled v =>
    refine ⟨keep, ?_⟩
    cases v with
    | port p =>
      exact (Holds.bind (log_sound _ _) fun _ => Holds.bind (note_sound _) fun _ =>
        Holds.bind (acceptLoop_sound a) fun loop =>
          Holds.bind (modifyServer_sound (fun srv => { srv with loop := some loop }) (fun _ _ => le_rfl)
            (fun _ => rfl) (fun _ => rfl)
            fun _ _ phase queue => ⟨phase, queue⟩) fun _ => settle_sound own _) w dropped
    | _ => exact settle_sound own _ w dropped
  | rejected f =>
    refine ⟨none, ?_⟩
    have mine := sound.starting a (by simp [World.starts, Loop.Job.owed, Reaction.binds])
    have alone : w.starts js = [] := by
      have single := sound.single
      simp only [World.starts, List.flatMap_cons, Loop.Job.owed, Reaction.binds, List.length_append,
        List.length_cons, List.length_nil] at single
      rw [← List.length_eq_zero_iff, World.starts, List.length_append]
      omega
    obtain ⟨l, l_mem, owner, refused⟩ := sound.resumed a own (.rejected f) (by simp)
    have unclaimed := sound.unclaimed_of_refused mine l_mem owner refused
    show Sound h socks js S none T
      (((modifyServer fun srv => { srv with acceptor := none }) >>= fun _ => settle own (.rejected f)).run w).2
    rw [bind_run, modifyServer_run]
    refine settle_sound own _ _ ?_
    cases found : w.server with
    | none =>
      refine (dropped.rekeep S none T (Or.inr unclaimed) (by simp [alone]) (fun _ => by simp [World.serverAcceptor, found])
        (fun _ => ⟨rfl, by simp [found]⟩) dropped.quelled).aside rfl rfl rfl rfl rfl (by rw [found]; rfl) rfl
    | some srv =>
      refine dropped.setServer found _ (fun _ => le_rfl) (Or.inr unclaimed) (by simp [alone]) (fun _ => rfl)
        (fun halted => ?_) (fun _ _ gone => absurd ‹_› gone) (fun _ mem => mem)
      obtain ⟨-, stopped⟩ := dropped.stopped halted
      obtain ⟨phase, empty, -, queue⟩ := stopped srv found
      exact ⟨rfl, phase, empty, rfl, queue⟩

/-- Running a job taken off the queue, with the cells it settles in hand,
keeps the invariant and lets go of the job.  A close closes its endpoint, a
listener that reports listening is then bound, and a connection handed to
the accept loop is taken up by it; only a start whose bind failed changes
what the server answers for. -/
theorem runJob_sound (j : Job Reaction Value Failure) (calm : S ≠ .stopping) :
    Holds (Sound (Loop.Job.owed Reaction.settles j ++ Loop.Job.tasked Reaction.settles j ++ h) socks (j :: js) S
      keep T) (runJob j) (fun _ w => ∃ keep', Sound h socks js S keep' T w) := by
  intro w sound
  by_cases carries : (∃ s, j = .task (.shut s)) ∨ (∃ i, j = .task (.listenDone i)) ∨
      ∃ a own s, j = .resume (.loopAccepted a own) (.fulfilled (.socket s))
  · refine ⟨keep, ?_⟩
    rcases carries with ⟨s, rfl⟩ | ⟨i, rfl⟩ | ⟨a, own, s, rfl⟩
    · have held := (sound.weaken (List.Subperm.refl _) (List.subset_cons_self s socks)).drop
        (fun _ same => by cases same; exact Or.inl List.mem_cons_self) (fun _ _ _ same => by cases same)
        fun _ same => by cases same
      exact closeNow_held_sound s w held
    · have ready := listenerReady_sound i w sound
      exact ready.1.drop (fun _ same => by cases same) (fun _ _ _ same => by cases same)
        fun _ same l found listens => by cases same; exact Or.inl (ready.2 l found listens)
    · have held := (sound.weaken (List.Subperm.refl _) (List.subset_cons_self s socks)).drop
        (fun _ same => by cases same) (fun _ _ _ same => by cases same; exact List.mem_cons_self)
        fun _ same => by cases same
      exact loopAccepted_socket_sound a own s calm w held
  have dropped := sound.drop (fun s same => absurd (Or.inl ⟨s, same⟩) carries)
    (fun a own s same => absurd (Or.inr (Or.inr ⟨a, own, s, same⟩)) carries)
    fun i same => absurd (Or.inr (Or.inl ⟨i, same⟩)) carries
  have idle : Sound h socks js S keep T w := dropped.weaken (List.sublist_append_right _ _).subperm fun _ mem => mem
  cases j with
  | task k =>
    refine ⟨keep, ?_⟩
    cases k with
    | deliver t chunk => exact arrive_sound t chunk w dropped
    | deliverEnd t => exact arriveEnd_sound t w dropped
    | shut t => exact absurd (Or.inl ⟨t, rfl⟩) carries
    | listenDone i => exact absurd (Or.inr (Or.inl ⟨i, rfl⟩)) carries
    | listenFailed i err =>
      obtain ⟨l, found, deaf⟩ := sound.failed i err (by simp)
      exact listenerError_sound i err w ⟨dropped, fun lst found' _ => by
        rw [found] at found'
        cases found'
        exact deaf⟩
    | listenerClosed c => exact settle_sound c _ w dropped
    | readTimedOut r => exact readTimedOut_sound r w dropped
    | _ => exact idle
  | resume k o =>
    cases k with
    | requestRead own => exact ⟨keep, requestRead_sound own o w dropped⟩
    | writeSent own => exact ⟨keep, writeSent_sound own o w dropped⟩
    | respondWritten s path status summary own =>
      exact ⟨keep, respondWritten_sound path status summary own o w dropped⟩
    | serveRead s own => exact ⟨keep, serveRead_sound s own o w dropped⟩
    | serveResponded own => exact ⟨keep, serveResponded_sound own o w dropped⟩
    | handleServed s own => exact ⟨keep, handleServed_sound s own o w dropped⟩
    | dispatchDone own => exact ⟨keep, settle_sound own o w dropped⟩
    | workerDone => exact ⟨keep, workerDone_sound o calm w dropped⟩
    | startBound a own => exact startBound_sound a own o w sound
    | loopAccepted a own =>
      exact ⟨keep, loopAccepted_other_sound a own o
        (fun s same => carries (Or.inr (Or.inr ⟨a, own, s, by rw [same]⟩))) w dropped⟩
    | loopDispatched a own => exact ⟨keep, loopDispatched_sound a own o w dropped⟩
    | stopAcceptorClosed loop own => exact ⟨keep, awaitLoop_sound loop own w dropped⟩
    | stopLoopDone own => exact ⟨keep, stopLoopDone_sound own o w dropped⟩
    | opSettled step acceptId => exact ⟨keep, observe_sound step acceptId o w dropped⟩
    | replyClosed c => exact ⟨keep, observeReply_sound c o w dropped⟩
    | _ => exact ⟨keep, idle⟩

end Jobs

end Machine
end HttpStub
