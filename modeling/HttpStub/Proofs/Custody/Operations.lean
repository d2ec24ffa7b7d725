import HttpStub.Proofs.Custody.Jobs

/-!
# The script's operations keep every connection in custody

A stop is where custody pays off.  Called while running, it fixes the
connections being handled as the only ones that will ever be handled: from
then on no handler starts.  It empties the pool's queue, queues a close for
each live connection and forgets them, and closes the acceptor the server
answers for, which closes every connection queued there and stops its
listener; what is left claims nothing, so once it ran the server answers for
no acceptor.  A start binds a new acceptor and answers for it, the other
operations keep what the server answers for, and a client's operations act
on endpoints only.
-/

namespace HttpStub
namespace Machine

open Async

theorem closeAcceptor_keeps_server (a : Nat) (w : World) : ((closeAcceptor a).run w).2.server = w.server := by
  simp only [closeAcceptor, bind_run, acceptor_run, setAcceptor_run]
  split
  · rfl
  · next sd _ =>
    simp only [bind_run]
    let W : World := { w with acceptors := w.acceptors.modify a fun _ => (w.acceptors[a]?.getD {}).shut.1 }
    have refused : ((sd.refuse.forM fun c => settle c (.rejected Failure.acceptorClosed)).run W).2.server =
        W.server :=
      keeps_forM (fun w => w.server) (fun _ _ => rfl) W
    have closed : ((sd.closeSockets.forM close).run
        ((sd.refuse.forM fun c => settle c (.rejected Failure.acceptorClosed)).run W).2).2.server =
          ((sd.refuse.forM fun c => settle c (.rejected Failure.acceptorClosed)).run W).2.server :=
      keeps_forM (fun w => w.server) (fun _ _ => rfl) _
    split
    · exact closed.trans refused
    · simp only [bind_run, fresh_run, modifyListener_run, defer_run, pure_run]
      exact closed.trans refused

theorem listen_keeps_owed {β : Type} (R : Reaction → List β) (l : Nat) (w : World) :
    ((listen l).run w).2.loop.owed R = w.loop.owed R := by
  simp only [listen, bind_run, get_run]
  split
  · simp [defer_run]
  · simp only [bind_run, listener?_run]
    split
    · split <;> exact Loop.owed_defer _ _ (Reaction.listenDone l)
    · rfl

/-- A bind makes cells and defers reports, so the loop owes what it owed:
in particular a bind starts no start. -/
theorem bind_keeps_owed {β : Type} (R : Reaction → List β) (a : Nat) (req : BindRequest) (X : List β) :
    Holds (fun w => w.loop.owed R = X) (Machine.bind a req) (fun _ w => w.loop.owed R = X) := by
  unfold Machine.bind
  refine Holds.reads_bind _ (acceptor_run · a) fun acc => ?_
  split
  · exact fun w same => (Loop.owed_settledCell _ _ _).trans same
  · refine Holds.bind (Q := fun _ w => w.loop.owed R = X) (fun w same => (Loop.owed_fresh _ _).trans same)
      fun cell => ?_
    refine Holds.bind (Q := fun _ w => w.loop.owed R = X) (Holds.modifyGet fun w same => same) fun l => ?_
    refine Holds.bind (Q := fun _ w => w.loop.owed R = X) (fun w same => same) fun _ => ?_
    refine Holds.bind (Q := fun _ w => w.loop.owed R = X) (fun w same => (listen_keeps_owed R l w).trans same)
      fun _ => ?_
    exact Holds.pure fun _ same => same

section Stop

variable {h : List CellId} {socks : List Nat} {js : List (Job Reaction Value Failure)}
  {S : Stage} {keep : Option Nat} {T : List Nat}

/-- Once the acceptor the server answers for is closed, nothing is claimed:
a listener that listens for an open acceptor, and a connection queued at
one, would be the server's. -/
theorem Sound.unclaimed_of_closed {w : World} (sound : Sound h socks js S keep T w) {a : Nat}
    (mine : keep = some a) (closed : ∀ acc, w.acceptors[a]? = some acc → acc.closed = true) : w.Unclaimed := by
  refine ⟨fun l mem listens acc found => ?_, fun a' acc found => ?_⟩
  · cases open_ : acc.closed
    · have serves := sound.serving l mem listens acc found open_
      rw [mine] at serves
      rw [← Option.some.inj serves] at found
      rw [closed acc found] at open_
      cases open_
    · rfl
  · by_contra queued
    obtain ⟨mine', -⟩ := sound.ready a' acc found queued
    rw [mine] at mine'
    rw [← Option.some.inj mine'] at found
    exact queued (sound.drained a acc found (closed acc found))

/-- The end of a stop: every live connection gets a close queued and none
stays live, and the acceptor, if any, is closed before the stop waits for
the accept loop.  Then nothing is claimed, and the stop has run. -/
theorem stopTail_sound (srv : Server) (own : CellId) (called : S ≠ .running) :
    Holds (fun w => Sound (own :: h) socks js S keep T w ∧ keep = srv.acceptor ∧
        ∃ s, w.server = some s ∧ s.phase = .stopped ∧ s.acceptor = none ∧ s.live = srv.live ∧ s.poolQueue = [])
      (do
        srv.live.forM close
        modifyServer fun srv => { srv with live := [] }
        match srv.acceptor with
        | some a => do
          let c ← closeAcceptor a
          onSettled c (.stopAcceptorClosed srv.loop own)
          pure own
        | none => do
          awaitLoop srv.loop own
          pure own)
      (fun _ => Sound h socks js .halted none T) := by
  rintro w ⟨sound, claim, s, found, phase, free, live, queue⟩
  let I : List Nat → World → Prop := fun rest w' => Sound (own :: h) socks js S keep T w' ∧
    w'.server = some s ∧ ∀ x ∈ srv.live, x ∈ rest ∨ .task (.shut x) ∈ w'.loop.jobs
  have closing : Holds (I srv.live) (srv.live.forM close) (fun _ => I []) :=
    Holds.forM I fun x rest => by
      rintro w' ⟨sound', same, queued⟩
      refine ⟨close_sound x w' sound', same, fun y mem => ?_⟩
      show y ∈ rest ∨ .task (.shut y) ∈ w'.loop.jobs ++ [.task (.shut x)]
      rcases queued y mem with here | done
      · rcases List.mem_cons.1 here with rfl | later
        · exact Or.inr (List.mem_append_right _ List.mem_cons_self)
        · exact Or.inl later
      · exact Or.inr (List.mem_append_left _ done)
  obtain ⟨sound₁, found₁, queued⟩ := closing w ⟨sound, found, fun x mem => Or.inl mem⟩
  have stays : S = .halted → keep = none := fun halted => (sound.stopped halted).1
  have sound₂ : Sound (own :: h) socks js S keep T
      { ((srv.live.forM close).run w).2 with server := some { s with live := [] } } := by
    refine sound₁.setServer found₁ _ (fun _ => le_rfl) (Or.inl rfl) sound₁.starting (fun moving => ?_)
      (fun halted => ⟨stays halted, phase, rfl, free, queue⟩) (fun x was _ => ?_) (fun _ mem => mem)
    · have halted : S = .halted := by cases S <;> simp_all
      exact (stays halted).trans free.symm
    · rw [live] at was
      rcases queued x was with none | shut
      · cases none
      · exact Or.inr (Or.inr (List.mem_append_left _ shut))
  rw [bind_run, bind_run, modifyServer_run, found₁, Option.map_some]
  cases mine : srv.acceptor with
  | some a =>
    obtain ⟨sound₃, closed⟩ := closeAcceptor_sound a _ sound₂
    have unclaimed := sound₃.unclaimed_of_closed (claim.trans mine) closed
    have server₃ := closeAcceptor_keeps_server a { ((srv.live.forM close).run w).2 with
      server := some { s with live := [] } }
    simp only [bind_run, onSettled_run, pure_run]
    refine (onSettled_sound _ (.stopAcceptorClosed srv.loop own) (fun _ _ same => by cases same) (fun _ => rfl)
      _ sound₃).halt (Or.inr unclaimed) called fun s' mem => ?_
    change s' ∈ ((closeAcceptor a).run _).2.server at mem
    rw [server₃, Option.mem_some_iff] at mem
    subst mem
    exact ⟨phase, rfl, free, queue⟩
  | none =>
    have waited : ∀ w', ((awaitLoop srv.loop own).run w').2.server = w'.server := by
      intro w'
      unfold awaitLoop
      cases srv.loop <;> rfl
    simp only [bind_run, pure_run]
    refine (awaitLoop_sound srv.loop own _ sound₂).halt (Or.inl (claim.trans mine)) called fun s' mem => ?_
    rw [waited, Option.mem_some_iff] at mem
    subst mem
    exact ⟨phase, rfl, free, queue⟩

/-- A stop, once one was called: the server gives up its acceptor and its
loop and is marked stopped, the pool's queue is emptied and its idle
waiters released, and the rest of the stop runs. -/
theorem stopping_sound (called : S ≠ .running) :
    Holds (fun w => Sound h socks js S keep T w ∧ keep = w.serverAcceptor) stop
      (fun _ => Sound h socks js .halted none T) := by
  rintro w ⟨sound, claim⟩
  have made := sound.fresh
  have stays : S = .halted → keep = none := fun halted => (sound.stopped halted).1
  unfold stop
  simp only [bind_run, fresh_run, get_run]
  cases found : w.server with
  | none =>
    have free : keep = none := by simpa [World.serverAcceptor, found] using claim
    have bare : Sound h socks js S keep T ({ w with loop := w.loop.fresh.2, server := none } : World) :=
      (made.weaken (List.sublist_cons_self _ _).subperm fun _ mem => mem).aside rfl rfl rfl rfl rfl found.symm rfl
    exact bare.halt (Or.inl free) called fun s mem => by cases mem
  | some srv =>
    have mine : keep = srv.acceptor := by simpa [World.serverAcceptor, found] using claim
    have earlier : S = .halted → srv.live = [] ∧ srv.poolQueue = [] := fun halted =>
      ⟨((sound.stopped halted).2 srv found).2.1, ((sound.stopped halted).2 srv found).2.2.2⟩
    let srv₁ : Server := { srv with acceptor := none, loop := none, phase := .stopped }
    let W : World := { w with loop := w.loop.fresh.2 }
    have sound₁ : Sound (w.loop.cells.size :: h) socks js S keep T { W with server := some srv₁ } := by
      refine made.setServer found srv₁ (fun _ => le_rfl) (Or.inl rfl) made.starting (fun moving => ?_)
        (fun halted => ⟨stays halted, rfl, (earlier halted).1, rfl, (earlier halted).2⟩)
        (fun _ was gone => absurd was gone) (fun _ mem => mem)
      have halted : S = .halted := by cases S <;> simp_all
      exact stays halted
    dsimp only
    rw [bind_run, modifyServer_run]
    simp only [Option.map_some]
    split
    · next p dispatched =>
      have pooled : Sound (p.clear.2.2 ++ w.loop.cells.size :: h) socks js S keep T _ := setPool_sound p.clear.1
        (fun c => le_of_eq (by rw [← List.append_assoc, WorkerPool.clear_waiters]))
        (fun _ => WorkerPool.clear_queue p) _ ⟨sound₁, srv₁, rfl, dispatched⟩
      let W₂ : World := { W with server := some { srv₁ with dispatcher := .concurrent p.clear.1 } }
      have released : Holds (Sound (p.clear.2.2 ++ w.loop.cells.size :: h) socks js S keep T)
          (p.clear.2.2.forM fun c => settle c (.fulfilled .unit))
          (fun _ => Sound (w.loop.cells.size :: h) socks js S keep T) :=
        Holds.forM (fun rest => Sound (rest ++ w.loop.cells.size :: h) socks js S keep T) fun c _ =>
          settle_sound c _
      have sound₃ := released W₂ pooled
      have server₃ : ((p.clear.2.2.forM fun c => settle c (.fulfilled .unit)).run W₂).2.server = W₂.server :=
        keeps_forM (fun w => w.server) (fun _ _ => rfl) W₂
      rw [bind_run, bind_run]
      exact stopTail_sound srv _ called _ ⟨sound₃, mine, _, server₃, rfl, rfl, rfl,
        by simp [Server.poolQueue, WorkerPool.clear_queue]⟩
    · next d plain =>
      have serial : srv₁.poolQueue = [] := by
        cases dispatched : srv₁.dispatcher with
        | concurrent p => exact absurd dispatched (plain p)
        | sequential c => simp [Server.poolQueue, dispatched]
      exact stopTail_sound srv _ called _ ⟨sound₁, mine, srv₁, rfl, rfl, rfl, rfl, serial⟩

/-- The binding part of a start, on a running server that answers for no
acceptor and no start in progress: a fresh acceptor, answered for from now
on, binds, and the start waits for the bind. -/
theorem claim_sound {srv : Server} (own : CellId) (req : BindRequest)
    (flat : js.flatMap (Loop.Job.owed Reaction.binds) = []) :
    Holds (fun w => Sound (own :: h) socks js .running none T w ∧ w.loop.owed Reaction.binds = [] ∧
        w.server = some srv)
      (do
        let a ← newAcceptor
        modifyServer fun srv => { srv with acceptor := some a }
        let b ← Machine.bind a req
        onSettled b (.startBound a own))
      (fun _ w => ∃ keep', Sound h socks js .running keep' T w) := by
  refine Holds.bind (Q := fun a w => (Sound (own :: h) socks js .running none T w ∧ w.acceptors[a]? = some {} ∧
      ∀ l ∈ w.listeners.toList, l.owner ≠ a) ∧ w.loop.owed Reaction.binds = [] ∧ w.server = some srv)
    (fun w pre => ⟨newAcceptor_sound w pre.1, pre.2⟩) fun a => ?_
  refine Holds.bind (Q := fun _ w => (Sound (own :: h) socks js .running (some a) T w ∧ w.acceptors[a]? = some {} ∧
      ∀ l ∈ w.listeners.toList, l.owner ≠ a) ∧ w.loop.owed Reaction.binds = [])
    (fun w pre => ?_) fun _ => ?_
  · obtain ⟨⟨sound, fresh, alone⟩, owed, found⟩ := pre
    have idle : w.starts js = [] := by rw [World.starts, owed, flat]; rfl
    rw [modifyServer_run]
    refine ⟨⟨?_, fresh, alone⟩, owed⟩
    rw [found]
    exact sound.setServer found { srv with acceptor := some a } (fun _ => le_rfl)
      (Or.inr (sound.unclaimed rfl)) (fun a' mem => by simp [idle] at mem) (fun _ => rfl)
      (fun halted => by cases halted) (fun x mem gone => absurd mem gone) fun _ mem => mem
  refine Holds.bind (Q := fun b w => (Sound (own :: h) socks js .running (some a) T w ∧
      ∃ l ∈ w.listeners.toList, l.bindCell = b ∧ l.owner = a) ∧ w.loop.owed Reaction.binds = [])
    (fun w pre => ⟨bind_sound a req w ⟨pre.1.1, pre.1.2.1, rfl, pre.1.2.2, fun _ => rfl⟩,
      bind_keeps_owed _ a req [] w pre.2⟩)
    fun b => ?_
  rintro w ⟨⟨sound, l, mem, cell, owner⟩, owed⟩
  have idle : w.starts js = [] := by rw [World.starts, owed, flat]; rfl
  rw [onSettled_run]
  exact ⟨some a, sound.onSettled_start mem cell owner idle (Or.inr rfl)⟩

/-- A start keeps the invariant: refused, it only settles its cell; on a
server neither started nor stopped, it claims an acceptor and binds it. -/
theorem start_sound (calm : S ≠ .stopping) :
    Holds (Sound h socks js S keep T) start (fun _ w => ∃ keep', Sound h socks js S keep' T w) := by
  intro w sound
  have made := sound.fresh
  unfold start
  simp only [bind_run, fresh_run, get_run]
  cases found : w.server with
  | none =>
    rw [found] at made
    exact ⟨keep, made.weaken (List.sublist_cons_self _ _).subperm fun _ mem => mem⟩
  | some srv =>
    rw [found] at made
    dsimp only
    by_cases bound : srv.acceptor.isSome = true
    · rw [if_pos bound]
      exact ⟨keep, (Holds.bind (settle_sound _ _) fun _ => Holds.pure fun _ done => done) _ made⟩
    rw [if_neg bound]
    by_cases ended : (srv.phase == Phase.stopped) = true
    · rw [if_pos ended]
      exact ⟨keep, (Holds.bind (settle_sound _ _) fun _ => Holds.pure fun _ done => done) _ made⟩
    rw [if_neg ended]
    have running : S = .running := by
      cases S with
      | running => rfl
      | stopping => exact absurd rfl calm
      | halted =>
        have phase := ((sound.stopped rfl).2 srv found).1
        simp [phase] at ended
    subst running
    have none : keep = none := by
      simpa [World.serverAcceptor, found, Option.not_isSome_iff_eq_none.1 bound] using sound.kept calm
    subst none
    have idle : w.starts js = [] := List.eq_nil_iff_forall_not_mem.2 fun a mem => by
      rcases sound.starting a mem with halted | claimed
      · cases halted
      · cases claimed
    have owed : w.loop.owed Reaction.binds = [] := (List.append_eq_nil_iff.1 idle).1
    have flat := (List.append_eq_nil_iff.1 idle).2
    exact (Holds.bind (R := fun _ w => ∃ keep', Sound h socks js .running keep' T w) (claim_sound _ _ flat)
      fun _ => Holds.pure fun _ done => done) _
      ⟨made, (Loop.owed_fresh _ _).trans owed, rfl⟩

/-- A stop called on a running or stopped server brings it to rest: it
answers for no acceptor, and the handlers it waits for are those in
progress when it was first called. -/
theorem stop_sound (calm : S ≠ .stopping) (w : World) (sound : Sound h socks js S keep T w) :
    Sound h socks js .halted none (if S = .running then w.handlers js else T) (stop.run w).2 := by
  have answers : keep = w.serverAcceptor := sound.kept calm
  cases S with
  | running =>
    have called := sound.rekeep .stopping keep (w.handlers js) (Or.inl rfl)
      (fun a mem => Or.inr ((sound.starting a mem).resolve_left fun same => by cases same)) (fun moving => absurd rfl moving)
      (fun same => by cases same) fun _ => List.Subperm.refl _
    rw [if_pos rfl]
    exact stopping_sound (S := .stopping) (fun same => by cases same) w ⟨called, answers⟩
  | stopping => exact absurd rfl calm
  | halted =>
    rw [if_neg (show Stage.halted ≠ .running from fun same => by cases same)]
    exact stopping_sound (S := .halted) (fun same => by cases same) w ⟨sound, answers⟩

/-- Draining answers at once, unless a pool is busy: then its cell waits
with the pool's idle waiters. -/
theorem drain_sound : Holds (Sound h socks js S keep T) drain (fun _ => Sound h socks js S keep T) := by
  unfold drain
  refine Holds.bind (Holds.reads (fun w => w.server.map (·.dispatcher)) fun _ => rfl) fun d => ?_
  split
  · exact fun w pre => pre.1
  · next p =>
    rintro w ⟨sound, same⟩
    obtain ⟨srv, found, pooled⟩ : ∃ srv, w.server = some srv ∧ srv.dispatcher = .concurrent p := by
      cases found : w.server with
      | none => simp [found] at same
      | some srv => exact ⟨srv, rfl, by simpa [found] using same.symm⟩
    have queue : S = .halted → p.queue = [] := fun halted => by
      simpa [Server.poolQueue, pooled] using ((sound.stopped halted).2 srv found).2.2.2
    have made := sound.fresh
    rw [bind_run, fresh_run]
    dsimp only
    rcases p.onIdle_cases w.loop.cells.size with idle | parked
    · rw [idle, if_pos rfl]
      exact (Holds.bind (setPool_sound p (fun _ => le_rfl) queue) fun _ =>
        Holds.bind (settle_sound _ _) fun _ => Holds.pure fun _ done => done) _ ⟨made, srv, found, pooled⟩
    · rw [parked, if_neg Bool.false_ne_true]
      have waiters : ∀ c, ((p.idleWaiters ++ [w.loop.cells.size]) ++ h).count c ≤
          (p.idleWaiters ++ w.loop.cells.size :: h).count c := fun c => by
        rw [List.append_assoc, List.singleton_append]
      exact (Holds.bind (setPool_sound { p with idleWaiters := p.idleWaiters ++ [w.loop.cells.size] } waiters queue) fun _ => Holds.pure fun _ done => done) _
        ⟨made, srv, found, pooled⟩
  · exact ((settledCell_sound _).weaken fun _ _ post => post.1).strengthen fun _ pre => pre.1

end Stop

end Machine
end HttpStub
