import HttpStub.Proofs.Machine.Lifecycle

namespace HttpStub
namespace Machine

/-!
# Who settles which cell

A cell is meant to be settled by one party: a read by its reader, a bind by
its listener, an accept by the acceptor that hands it a connection, the
stage of a handler by the reaction that resumes it.  Nothing in the machine
stops one party from settling another's cell, so that this never happens is
an invariant, and `Owned` states it.  Every cell that some party may settle
is held by exactly one of them: a record of the world (a read, a listener,
an acceptor's waiter, the pool's idle waiters, a client), a reaction that
waits on a cell or in the queue, a queued task or a timer, or the code
running now, whose cells are its *hand*.  The cells the acceptors' waiters
wait on, and those of binds that have not settled, are moreover pending.

Each lemma here says how one primitive change of a world moves what is held,
so that the code that runs on the machine can be followed a step at a time.
-/

open Async

/-- The cells a reaction settles when it runs: that of the stage it
resumes, or the one a listener's close reports on. -/
@[reducible] def Reaction.settles : Reaction → List CellId
  | .requestRead own | .writeSent own | .respondWritten _ _ _ _ own | .serveRead _ own
  | .serveResponded own | .handleServed _ own | .dispatchDone own | .startBound _ own
  | .loopAccepted _ own | .loopDispatched _ own | .stopAcceptorClosed _ own
  | .stopLoopDone own | .listenerClosed own => [own]
  | _ => []

/-- The idle waiters of a server's pool, if it dispatches on one. -/
def Server.poolWaiters (s : Server) : List CellId :=
  match s.dispatcher with
  | .concurrent p => p.idleWaiters
  | .sequential _ => []

namespace World

/-- The idle waiters of the server's pool. -/
def poolWaiters (w : World) : List CellId :=
  (w.server.map Server.poolWaiters).getD []

/-- The cells the acceptors' waiters wait on. -/
def waiters (w : World) : List CellId :=
  w.acceptors.toList.flatMap (·.waiters)

/-- The cells of the listeners' binds. -/
def bindCells (w : World) : List CellId :=
  w.listeners.toList.map (·.bindCell)

/-- The cells the records of a world hold. -/
def keepers (w : World) : List CellId :=
  w.readers.toList.map (·.cell) ++ w.bindCells ++ w.waiters ++ w.poolWaiters ++
    w.clients.toList.map (·.reply)

/-- Every cell held in a world, by a record or by what the loop holds. -/
def holders (w : World) : List CellId :=
  w.loop.held Reaction.settles ++ w.keepers

/-- The cells that must still be pending: the acceptors' waiters and the
binds that have not settled. -/
def guarded (w : World) : List CellId :=
  w.waiters ++ (w.listeners.toList.filter (!·.settled)).map (·.bindCell)

theorem guarded_subset_keepers (w : World) : w.guarded ⊆ w.keepers := by
  intro c mem
  simp only [guarded, List.mem_append, List.mem_map, List.mem_filter] at mem
  rcases mem with waiting | ⟨l, ⟨l_mem, -⟩, rfl⟩
  · exact List.mem_append_left _ (List.mem_append_left _ (List.mem_append_right _ waiting))
  · exact List.mem_append_left _ (List.mem_append_left _ (List.mem_append_left _
      (List.mem_append_right _ (List.mem_map.2 ⟨l, l_mem, rfl⟩))))

theorem bindCells_subset_keepers (w : World) : w.bindCells ⊆ w.keepers := fun _ mem =>
  List.mem_append_left _ (List.mem_append_left _ (List.mem_append_left _ (List.mem_append_right _ mem)))

@[simp] theorem keepers_loop (w : World) (l : Loop Reaction Value Failure) :
    ({ w with loop := l } : World).keepers = w.keepers := rfl

@[simp] theorem guarded_loop (w : World) (l : Loop Reaction Value Failure) :
    ({ w with loop := l } : World).guarded = w.guarded := rfl

@[simp] theorem bindCells_loop (w : World) (l : Loop Reaction Value Failure) :
    ({ w with loop := l } : World).bindCells = w.bindCells := rfl

end World

/-- Every cell that may be settled has one holder, every held cell exists,
and the guarded cells are pending; `hand` holds the cells of the code
running now. -/
structure Owned (hand : List CellId) (w : World) : Prop where
  nodup : (w.holders ++ hand).Nodup
  bound : ∀ c ∈ w.holders ++ hand, c < w.loop.cells.size
  guarded : ∀ c ∈ w.guarded, w.loop.Pending c

namespace Owned

variable {h h' : List CellId} {w w' : World}

theorem nodup_of_subperm {a b : List CellId} (sub : a.Subperm b) (nodup : b.Nodup) : a.Nodup := by
  obtain ⟨l, perm, part⟩ := sub
  exact perm.nodup_iff.1 (nodup.sublist part)

/-- A world that holds no more than another, with at least its cells and
its guarded cells pending, is owned as well. -/
theorem of_subperm (owned : Owned h w) (sub : (w'.holders ++ h').Subperm (w.holders ++ h))
    (grows : w.loop.cells.size ≤ w'.loop.cells.size)
    (guarded : ∀ c ∈ w'.guarded, w'.loop.Pending c) : Owned h' w' :=
  ⟨nodup_of_subperm sub owned.nodup,
    fun c mem => Nat.lt_of_lt_of_le (owned.bound c (List.Subperm.subset sub mem)) grows, guarded⟩

/-- The code may let go of cells. -/
theorem drop (owned : Owned h w) (sub : h'.Subperm h) : Owned h' w :=
  owned.of_subperm ((List.subperm_append_left _).2 sub) le_rfl owned.guarded

theorem bindCell_lt (owned : Owned h w) {c : CellId} (mem : c ∈ w.bindCells) : c < w.loop.cells.size :=
  owned.bound c (List.mem_append_left _ (List.mem_append_right _ (w.bindCells_subset_keepers mem)))

theorem not_guarded {c : CellId} (owned : Owned (c :: h) w) : c ∉ w.guarded := by
  intro guarded
  have held : c ∈ w.holders := List.mem_append_right _ (w.guarded_subset_keepers guarded)
  have := owned.nodup
  rw [List.nodup_append] at this
  exact this.2.2 c held c List.mem_cons_self rfl

theorem not_bindCell {c : CellId} (owned : Owned (c :: h) w) : c ∉ w.bindCells := by
  intro bound
  have held : c ∈ w.holders := by
    simp only [World.holders, World.keepers, List.mem_append]
    exact Or.inr (Or.inl (Or.inl (Or.inl (Or.inr bound))))
  have := owned.nodup
  rw [List.nodup_append] at this
  exact this.2.2 c held c List.mem_cons_self rfl

/-! ## Steps of the loop -/

section Loop

variable {l' : Loop Reaction Value Failure}

theorem subperm_middle {A A' K H H' : List CellId} (sub : (A' ++ H').Subperm (A ++ H)) :
    (A' ++ K ++ H').Subperm (A ++ K ++ H) := by
  have front : (A' ++ K ++ H').Perm (K ++ (A' ++ H')) := by
    simpa only [List.append_assoc] using (@List.perm_append_comm _ A' K).append_right H'
  have back : (K ++ (A ++ H)).Perm (A ++ K ++ H) := by
    simpa only [List.append_assoc] using ((@List.perm_append_comm _ K A).append_right H)
  exact front.subperm.trans (((List.subperm_append_left K).2 sub).trans back.subperm)

/-- A step of the loop that holds no more, keeps the cells and keeps the
guarded cells pending. -/
theorem loop_step (owned : Owned h w)
    (sub : (l'.held Reaction.settles ++ h').Subperm (w.loop.held Reaction.settles ++ h))
    (grows : w.loop.cells.size ≤ l'.cells.size)
    (pending : ∀ c ∈ w.guarded, w.loop.Pending c → l'.Pending c) :
    Owned h' { w with loop := l' } :=
  owned.of_subperm (subperm_middle sub) grows fun c mem => pending c mem (owned.guarded c mem)

theorem fresh (owned : Owned h w) :
    Owned (w.loop.cells.size :: h) { w with loop := w.loop.fresh.2 } := by
  have outside : w.loop.cells.size ∉ w.holders ++ h := fun mem =>
    Nat.lt_irrefl _ (owned.bound _ mem)
  refine ⟨?_, ?_, ?_⟩
  · have nodup : (w.loop.cells.size :: (w.holders ++ h)).Nodup :=
      List.nodup_cons.2 ⟨outside, owned.nodup⟩
    exact (List.perm_middle.symm).nodup_iff.1 (by simpa [World.holders] using nodup)
  · intro c mem
    simp only [World.holders, Loop.held_fresh, Loop.fresh_cells, Array.size_push] at mem ⊢
    rcases List.mem_append.1 mem with mem | mem
    · exact Nat.lt_succ_of_lt (owned.bound c (List.mem_append_left _ mem))
    · rcases List.mem_cons.1 mem with rfl | mem
      · exact Nat.lt_succ_self _
      · exact Nat.lt_succ_of_lt (owned.bound c (List.mem_append_right _ mem))
  · exact fun c mem => (owned.guarded c mem).fresh

theorem settledCell (owned : Owned h w) (o : Outcome Value Failure) :
    Owned h { w with loop := (w.loop.settledCell o).2 } :=
  owned.loop_step (by rw [Loop.held_settledCell]) (by simp [Loop.settledCell])
    fun _ _ pending => pending.settledCell o

/-- Settling a cell that is not guarded keeps what is held. -/
theorem settle {c : CellId} (owned : Owned h w) (free : c ∉ w.guarded) (o : Outcome Value Failure) :
    Owned h { w with loop := w.loop.settle c o } :=
  owned.loop_step ((Loop.held_settle _ _ c o).append_right _).subperm (by simp)
    fun x mem pending => pending.settle (fun same => free (by rwa [same])) o

theorem settle_hand {c : CellId} (owned : Owned (c :: h) w) (o : Outcome Value Failure) :
    Owned h { w with loop := w.loop.settle c o } :=
  (owned.settle owned.not_guarded o).drop (List.sublist_cons_self c h).subperm

/-- Attaching a reaction moves the cells it settles from the hand to the
loop. -/
theorem onSettled (c : CellId) (k : Reaction) (owned : Owned (k.settles ++ h) w) :
    Owned h { w with loop := w.loop.onSettled c k } := by
  refine owned.loop_step ?_ (by simp) fun _ _ pending => pending.onSettled c k
  by_cases inside : c < w.loop.cells.size
  · refine ((Loop.held_onSettled _ _ inside k).append_right h).subperm.trans ?_
    simp only [List.append_assoc]
    exact List.Subperm.refl _
  · have same : w.loop.onSettled c k = w.loop := by
      unfold Loop.onSettled
      rw [Array.getElem?_eq_none (Nat.le_of_not_lt inside)]
    rw [same]
    exact (List.subperm_append_left _).2 (List.sublist_append_right _ _).subperm

/-- Queueing a task moves the cells it settles from the hand to the loop. -/
theorem defer (k : Reaction) (owned : Owned (k.settles ++ h) w) :
    Owned h { w with loop := w.loop.defer k } := by
  refine owned.loop_step ?_ (by simp) fun _ _ pending => pending.of_cells rfl
  refine ((Loop.held_defer _ _ k).append_right h).subperm.trans ?_
  simp only [List.append_assoc]
  exact List.Subperm.refl _

theorem startTimer (delay : Nat) (k : Reaction) (owned : Owned (k.settles ++ h) w) :
    Owned h { w with loop := (w.loop.startTimer delay k).2 } := by
  refine owned.loop_step ?_ le_rfl fun _ _ pending => pending.of_cells rfl
  rw [Loop.held_startTimer, List.append_assoc]

theorem cancelTimer (t : Nat) (owned : Owned h w) :
    Owned h { w with loop := w.loop.cancelTimer t } :=
  owned.loop_step ((List.subperm_append_right h).2 (Loop.held_cancelTimer _ _ t)) le_rfl
    fun _ _ pending => pending.of_cells rfl

theorem fireDue {limit : Nat} {l' : Loop Reaction Value Failure}
    (fired : w.loop.fireDue? limit = some l') (owned : Owned h w) : Owned h { w with loop := l' } := by
  have same : l'.cells = w.loop.cells := by
    unfold Loop.fireDue? at fired
    split at fired
    · split at fired
      · cases fired
        rfl
      · cases fired
    · cases fired
  exact owned.loop_step ((List.subperm_append_right h).2 (Loop.held_fireDue _ _ fired))
    (by rw [same]) fun _ _ pending => pending.of_cells same

/-- Taking the first job off the queue puts the cells it settles in hand. -/
theorem pop {j : Job Reaction Value Failure} {rest : List (Job Reaction Value Failure)}
    (queued : w.loop.jobs = j :: rest) (owned : Owned h w) :
    Owned (Loop.Job.owed Reaction.settles j ++ Loop.Job.tasked Reaction.settles j ++ h)
      { w with loop := { w.loop with jobs := rest } } := by
  refine owned.loop_step ?_ le_rfl fun _ _ pending => pending.of_cells rfl
  refine List.Perm.subperm ?_
  have moved := (Loop.held_of_cons w.loop Reaction.settles queued).append_right h
  simp only [List.append_assoc] at moved ⊢
  exact moved.symm

end Loop

/-! ## Moves between the hand and the records

These are counted: a record may take cells from the hand and give cells to
it, and no cell may be held twice. -/

section Records

/-- A change of the records that holds each cell at most as often as
before, counting the hand, keeps the world owned. -/
theorem rekeep (owned : Owned h w) (loop : w'.loop = w.loop)
    (counts : ∀ c, (w'.keepers ++ h').count c ≤ (w.keepers ++ h).count c)
    (guarded : ∀ c ∈ w'.guarded, w.loop.Pending c) : Owned h' w' := by
  refine owned.of_subperm ?_ (by rw [loop]) (by rw [loop]; exact guarded)
  rw [List.subperm_iff_count]
  intro c
  have := counts c
  simp only [World.holders, loop, List.count_append] at this ⊢
  omega

theorem map_modify_eq {α β : Type} (f : α → α) (g : α → β) (keep : ∀ x, g (f x) = g x) :
    ∀ (xs : List α) (i : Nat), (xs.modify i f).map g = xs.map g
  | [], _ => by simp
  | x :: xs, 0 => by simp [keep]
  | x :: xs, i + 1 => by simp [map_modify_eq f g keep xs i]

theorem mem_modify {α : Type} {f : α → α} {x : α} :
    ∀ {xs : List α} {i : Nat}, x ∈ xs.modify i f → x ∈ xs ∨ ∃ y ∈ xs, x = f y
  | [], _, mem => by simp at mem
  | y :: xs, 0, mem => by
    simp only [List.modify_zero_cons, List.mem_cons] at mem
    rcases mem with rfl | mem
    · exact Or.inr ⟨y, List.mem_cons_self, rfl⟩
    · exact Or.inl (List.mem_cons_of_mem _ mem)
  | y :: xs, i + 1, mem => by
    simp only [List.modify_succ_cons, List.mem_cons] at mem
    rcases mem with rfl | mem
    · exact Or.inl List.mem_cons_self
    · rcases mem_modify mem with old | ⟨z, z_mem, rfl⟩
      · exact Or.inl (List.mem_cons_of_mem _ old)
      · exact Or.inr ⟨z, List.mem_cons_of_mem _ z_mem, rfl⟩

/-- A new read holds a cell from the hand. -/
theorem pushReader {c : CellId} (owned : Owned (c :: h) w) (rd : Reader) (cell : rd.cell = c) :
    Owned h { w with readers := w.readers.push rd } := by
  refine owned.rekeep rfl (fun x => ?_) owned.guarded
  simp only [World.keepers, World.bindCells, World.waiters, World.poolWaiters, Array.toList_push, List.map_append, List.map_cons, List.map_nil, cell,
    List.count_append, List.count_cons, List.count_nil]
  omega

/-- Changing a read but its cell. -/
theorem modifyReader (owned : Owned h w) (r : Nat) (f : Reader → Reader)
    (keep : ∀ x, (f x).cell = x.cell) : Owned h { w with readers := w.readers.modify r f } := by
  refine owned.rekeep rfl (fun x => ?_) owned.guarded
  simp only [World.keepers, World.bindCells, World.waiters, World.poolWaiters, Array.toList_modify, map_modify_eq f _ keep, le_refl]

/-- A new client holds a cell from the hand for its reply. -/
theorem pushClient {c : CellId} (owned : Owned (c :: h) w) (k : Client) (reply : k.reply = c) :
    Owned h { w with clients := w.clients.push k } := by
  refine owned.rekeep rfl (fun x => ?_) owned.guarded
  simp only [World.keepers, World.bindCells, World.waiters, World.poolWaiters, Array.toList_push, List.map_append, List.map_cons, List.map_nil, reply,
    List.count_append, List.count_cons, List.count_nil]
  omega

/-- Changing a client but its reply. -/
theorem modifyClient (owned : Owned h w) (i : Nat) (f : Client → Client)
    (keep : ∀ x, (f x).reply = x.reply) : Owned h { w with clients := w.clients.modify i f } := by
  refine owned.rekeep rfl (fun x => ?_) owned.guarded
  simp only [World.keepers, World.bindCells, World.waiters, World.poolWaiters, Array.toList_modify, map_modify_eq f _ keep, le_refl]

/-- A new listener holds its bind's cell, from the hand and still pending. -/
theorem pushListener {c : CellId} (owned : Owned (c :: h) w) (l : Listener) (cell : l.bindCell = c)
    (unsettled : l.settled = false) (pending : w.loop.Pending c) :
    Owned h { w with listeners := w.listeners.push l } := by
  refine owned.rekeep rfl (fun x => ?_) ?_
  · simp only [World.keepers, World.bindCells, World.waiters, World.poolWaiters, Array.toList_push, List.map_append, List.map_cons,
      List.map_nil, cell, List.count_append, List.count_cons, List.count_nil]
    omega
  · intro x mem
    simp only [World.guarded, Array.toList_push, List.filter_append, List.map_append,
      List.mem_append] at mem
    rcases mem with waiting | old | new
    · exact owned.guarded x (List.mem_append_left _ waiting)
    · exact owned.guarded x (List.mem_append_right _ old)
    · simp [unsettled, cell] at new
      exact new ▸ pending

/-- Changing a listener but its bind's cell, without unsettling its bind. -/
theorem modifyListener (owned : Owned h w) (i : Nat) (f : Listener → Listener)
    (keep : ∀ x, (f x).bindCell = x.bindCell) (settles : ∀ x, x.settled = true → (f x).settled = true) :
    Owned h { w with listeners := w.listeners.modify i f } := by
  refine owned.rekeep rfl (fun x => ?_) ?_
  · simp only [World.keepers, World.bindCells, World.waiters, World.poolWaiters, Array.toList_modify, map_modify_eq f _ keep, le_refl]
  · intro x mem
    simp only [World.guarded, List.mem_append, List.mem_map, List.mem_filter, Array.toList_modify] at mem
    rcases mem with waiting | ⟨l, ⟨l_mem, unsettled⟩, rfl⟩
    · exact owned.guarded x (List.mem_append_left _ waiting)
    · refine owned.guarded _ (List.mem_append_right _ ?_)
      simp only [List.mem_map, List.mem_filter]
      rcases mem_modify l_mem with old | ⟨y, y_mem, rfl⟩
      · exact ⟨l, ⟨old, unsettled⟩, rfl⟩
      · refine ⟨y, ⟨y_mem, ?_⟩, (keep y).symm⟩
        cases settled : y.settled
        · rfl
        · simp [settles y settled] at unsettled

/-- Replacing an acceptor moves its waiters' cells to and from the hand;
the waiters it gets must be pending. -/
theorem setAcceptor (owned : Owned h w) {a : Nat} {old : Acceptor} (found : w.acceptors[a]? = some old)
    (x : Acceptor) (counts : ∀ c, (x.waiters ++ h').count c ≤ (old.waiters ++ h).count c)
    (pending : ∀ c ∈ x.waiters, w.loop.Pending c) :
    Owned h' { w with acceptors := w.acceptors.modify a fun _ => x } := by
  have listed : w.acceptors.toList[a]? = some old := by simpa using found
  have before := Loop.flatMap_at (·.waiters) listed
  have after := Loop.flatMap_modify_at (·.waiters) (fun _ => x) listed
  refine owned.rekeep rfl (fun c => ?_) ?_
  · have := counts c
    simp only [World.keepers, World.bindCells, World.waiters, World.poolWaiters, Array.toList_modify,
      after, before, List.count_append] at this ⊢
    omega
  · intro c mem
    simp only [World.guarded, World.waiters, Array.toList_modify, after, List.mem_append] at mem
    rcases mem with (front | mine | back) | binding
    · exact owned.guarded c (by simp [World.guarded, World.waiters, before, front])
    · exact pending c mine
    · exact owned.guarded c (by simp [World.guarded, World.waiters, before, back])
    · exact owned.guarded c (List.mem_append_right _ binding)

/-- A new acceptor waits for nothing. -/
theorem pushAcceptor (owned : Owned h w) :
    Owned h { w with acceptors := w.acceptors.push {} } := by
  refine owned.rekeep rfl (fun c => ?_) ?_
  · simp [World.keepers, World.bindCells, World.waiters, World.poolWaiters]
  · intro c mem
    exact owned.guarded c (by simpa [World.guarded, World.waiters] using mem)

/-- Replacing the server moves the pool's idle waiters to and from the
hand. -/
theorem setServer (owned : Owned h w) {s : Server} (found : w.server = some s) (s' : Server)
    (counts : ∀ c, (s'.poolWaiters ++ h').count c ≤ (s.poolWaiters ++ h).count c) :
    Owned h' { w with server := some s' } := by
  refine owned.rekeep rfl (fun c => ?_) owned.guarded
  have := counts c
  simp only [World.keepers, World.bindCells, World.waiters, World.poolWaiters, found, Option.map_some,
    Option.getD_some, List.count_append] at this ⊢
  omega

/-- Changing the server but its pool's idle waiters. -/
theorem mapServer (owned : Owned h w) (f : Server → Server)
    (keep : ∀ s, (f s).poolWaiters = s.poolWaiters) :
    Owned h { w with server := w.server.map f } := by
  refine owned.rekeep rfl (fun c => ?_) owned.guarded
  cases found : w.server with
  | none => simp [World.keepers, World.bindCells, World.waiters, World.poolWaiters, found]
  | some s => simp [World.keepers, World.bindCells, World.waiters, World.poolWaiters, found, keep]

end Records

end Owned

end Machine
end HttpStub
