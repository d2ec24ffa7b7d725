import HttpStub.Proofs.Machine.Owners

namespace HttpStub
namespace Machine

/-!
# Where every connection of the server is

A connection a client opens hands its server end to the listener, and from
there it is always somewhere the server will close it from when it stops:
queued in an acceptor, on its way to the accept loop, among the live
connections, with a close queued, or closed.  `Sound` is the invariant that
says so, with what it needs about the rest of the machine:

* cells are held by one party each (`Owned`), so an acceptor's waiter is only
  ever settled by the acceptor, and the accept loop hears every connection
  handed to it;
* a start resumes with how its bind settled, and a bind that failed left its
  listener deaf, so that a start giving up its acceptor leaves nothing
  behind in it;
* every listener that listens and every acceptor with connections queued
  belongs to the acceptor the server answers for, `keep`, which a stop
  closes;
* once a stop was called, no handler starts: the connections being handled
  are among those handled when the stop was called, `atStop`.

The code running now has a hand of cells and of connections it is moving
(`hand`, `socks`), and a job taken off the queue is still followed (`js`).
`stage` says how far a stop has gone.
-/

open Async

/-- How far a stop has gone: none was called, one is letting go of the
server's acceptor and connections, or one was called and ran. -/
inductive Stage where
  | running
  | stopping
  | halted
  deriving DecidableEq

/-- The connections queued for a worker of a server's pool. -/
def Server.poolQueue (s : Server) : List Nat :=
  match s.dispatcher with
  | .concurrent p => p.queue
  | .sequential _ => []

/-- The acceptor a start waits to bind. -/
def Reaction.binds : Reaction → List Nat
  | .startBound a _ => [a]
  | _ => []

/-- The connection a handler resumes on. -/
def Reaction.handled : Reaction → List Nat
  | .handleServed s _ => [s]
  | _ => []

namespace World

/-- Whether an endpoint exists and is closed. -/
def isClosed (w : World) (s : Nat) : Bool :=
  (w.sockets[s]?.map (·.closed)).getD false

/-- The server's live connections. -/
def live (w : World) : List Nat :=
  (w.server.map (·.live)).getD []

/-- The server's acceptor. -/
def serverAcceptor (w : World) : Option Nat :=
  w.server.bind (·.acceptor)

/-- The acceptors of the starts in progress: waiting for their bind, queued
to resume, or taken off the queue in `js`. -/
def starts (w : World) (js : List (Job Reaction Value Failure)) : List Nat :=
  w.loop.owed Reaction.binds ++ js.flatMap (Loop.Job.owed Reaction.binds)

/-- The connections of the handlers in progress: waiting to resume, queued,
or taken off the queue in `js`. -/
def handlers (w : World) (js : List (Job Reaction Value Failure)) : List Nat :=
  w.loop.owed Reaction.handled ++ js.flatMap (Loop.Job.owed Reaction.handled)

end World

/-- The invariant of a server's world: who settles which cell, what the
starts and listeners are doing, and where every server end of a connection
is.  `hand` and `socks` are the cells and connections the code running now
holds, `js` the jobs taken off the queue, `stage` how far a stop has gone,
`keep` the acceptor the server answers for and `atStop` the connections
handled when the stop was called. -/
structure Sound (hand : List CellId) (socks : List Nat) (js : List (Job Reaction Value Failure))
    (stage : Stage) (keep : Option Nat) (atStop : List Nat) (w : World) : Prop where
  owned : Owned hand w
  /-- Every waiter of an acceptor is waited on by the accept loop. -/
  waiter : ∀ x ∈ w.waiters, ∃ ks, w.loop.cells[x]? = some (.pending ks) ∧
    ∃ a own, .loopAccepted a own ∈ ks
  /-- A start waits on the bind of its acceptor's listener. -/
  binding : ∀ c ks a own, w.loop.cells[c]? = some (.pending ks) → .startBound a own ∈ ks →
    ∃ l ∈ w.listeners.toList, l.bindCell = c ∧ l.owner = a
  /-- A start resumes with how its acceptor's bind settled. -/
  resumed : ∀ a own o, .resume (.startBound a own) o ∈ w.loop.jobs ++ js →
    ∃ l ∈ w.listeners.toList, l.owner = a ∧ w.loop.outcome? l.bindCell = some o
  /-- A start in progress binds the acceptor the server answers for, unless
  the server was stopped. -/
  starting : ∀ a ∈ w.starts js, stage = .halted ∨ keep = some a
  /-- At most one start is in progress. -/
  single : (w.starts js).length ≤ 1
  /-- Every listener belongs to an acceptor. -/
  owner : ∀ l ∈ w.listeners.toList, l.owner < w.acceptors.size
  /-- The listener an acceptor records is one of its own. -/
  paired : ∀ (a : Nat) (acc : Acceptor) (i : Nat), w.acceptors[a]? = some acc → acc.listener = some i →
    ∃ l, w.listeners[i]? = some l ∧ l.owner = a
  /-- An acceptor has one listener at most. -/
  unique : ∀ (i j : Nat) (l l' : Listener), w.listeners[i]? = some l → w.listeners[j]? = some l' →
    l.owner = l'.owner → i = j
  /-- A settled listener's bind has an outcome. -/
  settled : ∀ l ∈ w.listeners.toList, l.settled = true → (w.loop.outcome? l.bindCell).isSome
  /-- A listener listens only after a bind that succeeded, or while it is
  about to report that it listens. -/
  listening : ∀ (i : Nat) (l : Listener), w.listeners[i]? = some l → l.listening = true →
    (∃ v, w.loop.outcome? l.bindCell = some (.fulfilled v)) ∨
      (w.loop.outcome? l.bindCell = none ∧ .task (.listenDone i) ∈ w.loop.jobs ++ js)
  /-- A listener about to report a bind error exists and does not listen. -/
  failed : ∀ (i : Nat) err, .task (.listenFailed i err) ∈ w.loop.jobs ++ js →
    ∃ l, w.listeners[i]? = some l ∧ l.listening = false
  /-- A listener that listens for an open acceptor listens for the acceptor
  the server answers for. -/
  serving : ∀ l ∈ w.listeners.toList, l.listening = true →
    ∀ acc, w.acceptors[l.owner]? = some acc → acc.closed = false → keep = some l.owner
  /-- A closed acceptor has no connection queued. -/
  drained : ∀ (a : Nat) (acc : Acceptor), w.acceptors[a]? = some acc → acc.closed = true →
    Acceptor.readySockets acc.ready = []
  /-- Connections are queued only at the acceptor the server answers for,
  whose listener listens or was bound. -/
  ready : ∀ (a : Nat) (acc : Acceptor), w.acceptors[a]? = some acc → Acceptor.readySockets acc.ready ≠ [] →
    keep = some a ∧ ∃ l ∈ w.listeners.toList, l.owner = a ∧
      (l.listening = true ∨ ∃ v, w.loop.outcome? l.bindCell = some (.fulfilled v))
  /-- The server answers for its own acceptor, but for while a stop closes
  the one it let go of. -/
  kept : stage ≠ .stopping → keep = w.serverAcceptor
  /-- Timers only time reads out. -/
  timed : ∀ t ∈ w.loop.timers, ∃ r, t.task = .readTimedOut r
  /-- Every client's server end exists. -/
  fars : ∀ k ∈ w.clients.toList, k.far < w.sockets.size
  /-- Every client's server end is in hand, closed, live, queued at an
  acceptor, about to be closed, or on its way to the accept loop. -/
  held : ∀ k ∈ w.clients.toList, k.far ∈ socks ∨ w.isClosed k.far = true ∨ k.far ∈ w.live ∨
    (∃ acc ∈ w.acceptors.toList, k.far ∈ Acceptor.readySockets acc.ready) ∨
    .task (.shut k.far) ∈ w.loop.jobs ++ js ∨
    ∃ a own, .resume (.loopAccepted a own) (.fulfilled (.socket k.far)) ∈ w.loop.jobs ++ js
  /-- A stopped server has let go of everything. -/
  stopped : stage = .halted → keep = none ∧ ∀ s ∈ w.server,
    s.phase = .stopped ∧ s.live = [] ∧ s.acceptor = none ∧ s.poolQueue = []
  /-- Once a stop was called, no handler starts. -/
  quelled : stage ≠ .running → (w.handlers js).Subperm atStop

theorem mem_of_found {α : Type} {xs : Array α} {i : Nat} {x : α} (found : xs[i]? = some x) :
    x ∈ xs.toList :=
  Array.mem_toList_iff.2 (Array.mem_of_getElem? found)

namespace Sound

variable {h h' : List CellId} {socks socks' : List Nat} {js : List (Job Reaction Value Failure)}
  {S : Stage} {keep : Option Nat} {T : List Nat} {w : World}

/-- The code may let go of cells, and take up connections. -/
theorem weaken (sound : Sound h socks js S keep T w) (sub : h'.Subperm h) (more : socks ⊆ socks') :
    Sound h' socks' js S keep T w :=
  { sound with
    owned := sound.owned.drop sub
    held := fun k mem => by
      rcases sound.held k mem with mine | rest
      · exact Or.inl (more mine)
      · exact Or.inr rest }

/-- The invariant reads the loop, the records and the server of a world, and
of its endpoints only how many there are and which are closed: more
endpoints, and more of them closed, keep it. -/
theorem congr {w' : World} (sound : Sound h socks js S keep T w) (loop : w'.loop = w.loop)
    (listeners : w'.listeners = w.listeners) (acceptors : w'.acceptors = w.acceptors)
    (readers : w'.readers = w.readers) (clients : w'.clients = w.clients) (server : w'.server = w.server)
    (size : w.sockets.size ≤ w'.sockets.size) (closed : ∀ s, w.isClosed s = true → w'.isClosed s = true) :
    Sound h socks js S keep T w' := by
  obtain ⟨⟩ := w
  obtain ⟨⟩ := w'
  simp only at loop listeners acceptors readers clients server size
  subst loop listeners acceptors readers clients server
  exact
    { owned := ⟨sound.owned.nodup, sound.owned.bound, sound.owned.guarded⟩
      waiter := sound.waiter
      binding := sound.binding
      resumed := sound.resumed
      starting := sound.starting
      single := sound.single
      owner := sound.owner
      paired := sound.paired
      unique := sound.unique
      settled := sound.settled
      listening := sound.listening
      failed := sound.failed
      serving := sound.serving
      drained := sound.drained
      ready := sound.ready
      kept := sound.kept
      timed := sound.timed
      fars := fun k mem => Nat.lt_of_lt_of_le (sound.fars k mem) size
      held := fun k mem => by
        rcases sound.held k mem with mine | shut | rest
        · exact Or.inl mine
        · exact Or.inr (Or.inl (closed _ shut))
        · exact Or.inr (Or.inr rest)
      stopped := sound.stopped
      quelled := sound.quelled }

/-! ## Steps of the loop -/

section Loop

variable {l' : Loop Reaction Value Failure} {o : Outcome Value Failure}

/-- A step of the loop keeps the invariant when it keeps the cells owned,
lets the waiters wait on, attaches no start, settles no bind, and only queues
jobs that resume no start and report bind errors only of listeners that do
not listen. -/
theorem of_loop (sound : Sound h socks js S keep T w) (owned : Owned h' { w with loop := l' })
    (waits : ∀ x ∈ w.waiters, ∀ ks, w.loop.cells[x]? = some (.pending ks) →
      ∃ ks', l'.cells[x]? = some (.pending ks') ∧ ks ⊆ ks')
    (binds : ∀ (c : CellId) (ks' : List Reaction) (a : Nat) (own : CellId),
      l'.cells[c]? = some (.pending ks') → Reaction.startBound a own ∈ ks' →
      ∃ ks, w.loop.cells[c]? = some (.pending ks) ∧ Reaction.startBound a own ∈ ks)
    (outcomes : ∀ c ∈ w.bindCells, l'.outcome? c = w.loop.outcome? c)
    (more : List (Job Reaction Value Failure)) (jobs : l'.jobs = w.loop.jobs ++ more)
    (calm : ∀ j ∈ more, (∀ a own o, j ≠ .resume (.startBound a own) o) ∧
      ∀ i err, j = .task (.listenFailed i err) → ∃ l, w.listeners[i]? = some l ∧ l.listening = false)
    (owes : (l'.owed Reaction.binds).Perm (w.loop.owed Reaction.binds))
    (handles : S ≠ .running → (l'.owed Reaction.handled).Subperm (w.loop.owed Reaction.handled))
    (timers : ∀ t ∈ l'.timers, ∃ r, t.task = .readTimedOut r) :
    Sound h' socks js S keep T { w with loop := l' } := by
  have grown : ∀ j, j ∈ w.loop.jobs ++ js → j ∈ l'.jobs ++ js := by
    intro j mem
    rw [jobs]
    simp only [List.mem_append] at mem ⊢
    tauto
  have shrunk : ∀ j, j ∈ l'.jobs ++ js → j ∈ w.loop.jobs ++ js ∨ j ∈ more := by
    intro j mem
    rw [jobs] at mem
    simp only [List.mem_append] at mem ⊢
    tauto
  have bound : ∀ l ∈ w.listeners.toList, l'.outcome? l.bindCell = w.loop.outcome? l.bindCell :=
    fun l mem => outcomes _ (List.mem_map.2 ⟨l, mem, rfl⟩)
  have started : ∀ a, a ∈ ({ w with loop := l' } : World).starts js ↔ a ∈ w.starts js := by
    intro a
    simp only [World.starts, List.mem_append, owes.mem_iff]
  refine
    { owned := owned
      waiter := fun x mem => ?_
      binding := fun c ks a own pending bound => ?_
      resumed := fun a own o mem => ?_
      starting := fun a mem => sound.starting a ((started a).1 mem)
      single := ?_
      owner := sound.owner
      paired := sound.paired
      unique := sound.unique
      settled := fun l mem settled => by rw [bound l mem]; exact sound.settled l mem settled
      listening := fun i l found listens => ?_
      failed := fun i err mem => ?_
      serving := sound.serving
      drained := sound.drained
      ready := fun a acc found queued => ?_
      kept := sound.kept
      timed := timers
      fars := sound.fars
      held := fun k mem => ?_
      stopped := sound.stopped
      quelled := fun called =>
        ((List.subperm_append_right _).2 (handles called)).trans (sound.quelled called) }
  · obtain ⟨ks, pending, a, own, accepted⟩ := sound.waiter x mem
    obtain ⟨ks', pending', grows⟩ := waits x mem ks pending
    exact ⟨ks', pending', a, own, grows accepted⟩
  · obtain ⟨ks, pending, bound⟩ := binds c ks a own pending bound
    exact sound.binding c ks a own pending bound
  · rcases shrunk _ mem with old | new
    · obtain ⟨l, l_mem, owner, outcome⟩ := sound.resumed a own o old
      exact ⟨l, l_mem, owner, by rw [bound l l_mem]; exact outcome⟩
    · exact absurd rfl ((calm _ new).1 a own o)
  · have same : (({ w with loop := l' } : World).starts js).Perm (w.starts js) :=
      owes.append_right _
    rw [same.length_eq]
    exact sound.single
  · rw [bound l (mem_of_found found)]
    rcases sound.listening i l found listens with done | ⟨none, queued⟩
    · exact Or.inl done
    · exact Or.inr ⟨none, grown _ queued⟩
  · rcases shrunk _ mem with old | new
    · exact sound.failed i err old
    · exact (calm _ new).2 i err rfl
  · obtain ⟨mine, l, l_mem, owner, bound'⟩ := sound.ready a acc found queued
    refine ⟨mine, l, l_mem, owner, ?_⟩
    rw [bound l l_mem]
    exact bound'
  · rcases sound.held k mem with mine | closed | live | queued | shut | accepted
    · exact Or.inl mine
    · exact Or.inr (Or.inl closed)
    · exact Or.inr (Or.inr (Or.inl live))
    · exact Or.inr (Or.inr (Or.inr (Or.inl queued)))
    · exact Or.inr (Or.inr (Or.inr (Or.inr (Or.inl (grown _ shut)))))
    · obtain ⟨a, own, accepted⟩ := accepted
      exact Or.inr (Or.inr (Or.inr (Or.inr (Or.inr ⟨a, own, grown _ accepted⟩))))

theorem fresh (sound : Sound h socks js S keep T w) :
    Sound (w.loop.cells.size :: h) socks js S keep T { w with loop := w.loop.fresh.2 } := by
  refine sound.of_loop sound.owned.fresh (fun x mem ks pending => ?_) (fun c ks' a own pending bound => ?_)
    (fun c mem => w.loop.outcome?_fresh (sound.owned.bindCell_lt mem)) [] (by simp)
    (by simp) (by simp) (fun _ => by simp [List.Subperm.refl]) (by simpa using sound.timed)
  · refine ⟨ks, ?_, fun _ mem => mem⟩
    rw [Loop.getElem?_fresh, if_neg (Nat.ne_of_lt (Loop.Pending.lt (⟨ks, pending⟩ : w.loop.Pending x)))]
    exact pending
  · rw [Loop.getElem?_fresh] at pending
    split at pending
    · cases pending
      cases bound
    · exact ⟨ks', pending, bound⟩

theorem settledCell (sound : Sound h socks js S keep T w) (o : Outcome Value Failure) :
    Sound h socks js S keep T { w with loop := (w.loop.settledCell o).2 } := by
  refine sound.of_loop (sound.owned.settledCell o) (fun x mem ks pending => ?_)
    (fun c ks' a own pending bound => ?_)
    (fun c mem => w.loop.outcome?_settledCell (sound.owned.bindCell_lt mem) o) [] (by simp [Loop.settledCell])
    (by simp) (by simp) (fun _ => by simp [List.Subperm.refl]) (by simpa [Loop.settledCell] using sound.timed)
  · refine ⟨ks, ?_, fun _ mem => mem⟩
    simp only [Loop.settledCell, Array.getElem?_push,
      if_neg (Nat.ne_of_lt (Loop.Pending.lt (⟨ks, pending⟩ : w.loop.Pending x)))]
    exact pending
  · simp only [Loop.settledCell, Array.getElem?_push] at pending
    split at pending
    · cases pending
    · exact ⟨ks', pending, bound⟩

/-- Settling a cell that is neither guarded nor a bind's keeps the
invariant; what waited on it is queued, and none of it is a start. -/
theorem settle {c : CellId} (sound : Sound h socks js S keep T w) (free : c ∉ w.guarded)
    (unbound : c ∉ w.bindCells) (owned : Owned h' { w with loop := w.loop.settle c o }) :
    Sound h' socks js S keep T { w with loop := w.loop.settle c o } := by
  by_cases waits : ∃ ks, w.loop.cells[c]? = some (.pending ks)
  · obtain ⟨ks, waits⟩ := waits
    refine sound.of_loop owned (fun x mem ks' pending => ?_) (fun x ks' a own pending bound => ?_)
      (fun x mem => w.loop.outcome?_settle_of_ne (fun same => unbound (by rw [same]; exact mem)) o)
      (ks.map (Job.resume · o)) (by rw [Loop.settle_of_pending _ waits]) (fun j mem => ?_)
      (Loop.owed_settle _ _ c o) (fun _ => (Loop.owed_settle _ _ c o).subperm) (by simpa using sound.timed)
    · refine ⟨ks', ?_, fun _ mem => mem⟩
      rw [Loop.getElem?_settle _ waits, if_neg]
      · exact pending
      · rintro rfl
        exact free (List.mem_append_left _ mem)
    · rw [Loop.getElem?_settle _ waits] at pending
      split at pending
      · cases pending
      · exact ⟨ks', pending, bound⟩
    · obtain ⟨k, k_mem, rfl⟩ := List.mem_map.1 mem
      refine ⟨fun a own o' same => ?_, fun i err same => by cases same⟩
      cases same
      obtain ⟨l, l_mem, cell, -⟩ := sound.binding c ks a own waits k_mem
      exact unbound (List.mem_map.2 ⟨l, l_mem, cell⟩)
  · have same : w.loop.settle c o = w.loop :=
      Loop.settle_of_not_pending _ (fun ks found => waits ⟨ks, found⟩) o
    rw [same] at owned ⊢
    exact { sound with owned := owned }

theorem settle_hand {c : CellId} (sound : Sound (c :: h) socks js S keep T w) (o : Outcome Value Failure) :
    Sound h socks js S keep T { w with loop := w.loop.settle c o } :=
  sound.settle sound.owned.not_guarded sound.owned.not_bindCell (sound.owned.settle_hand o)

/-- Attaching a reaction that is not a start moves the cells it settles from
the hand to the loop. -/
theorem onSettled (c : CellId) (k : Reaction) (calm : ∀ a own, k ≠ .startBound a own)
    (quiet : S ≠ .running → k.handled = []) (sound : Sound (k.settles ++ h) socks js S keep T w) :
    Sound h socks js S keep T { w with loop := w.loop.onSettled c k } := by
  have silent : k.binds = [] := by
    cases k <;> first | rfl | exact absurd rfl (calm _ _)
  have owes := Loop.owed_onSettled_silent w.loop Reaction.binds c silent
  have handles : S ≠ .running → ((w.loop.onSettled c k).owed Reaction.handled).Subperm
      (w.loop.owed Reaction.handled) :=
    fun called => (Loop.owed_onSettled_silent w.loop Reaction.handled c (quiet called)).subperm
  have timers : ∀ t ∈ (w.loop.onSettled c k).timers, ∃ r, t.task = .readTimedOut r := by
    simpa using sound.timed
  have outcomes : ∀ x ∈ w.bindCells, (w.loop.onSettled c k).outcome? x = w.loop.outcome? x :=
    fun x _ => w.loop.outcome?_onSettled c k x
  have owned := sound.owned.onSettled c k
  obtain ⟨more, jobs, queued⟩ := w.loop.jobs_onSettled c k
  refine sound.of_loop owned (fun x _ ks' pending => w.loop.pending_onSettled pending c k)
    (fun x ks' a own pending bound => ?_) outcomes more jobs (fun j mem => ?_) owes handles timers
  · obtain ⟨ks, was, before⟩ := w.loop.pending_of_onSettled pending
    rcases before _ bound with old | ⟨-, same⟩
    · exact ⟨ks, was, old⟩
    · exact absurd same.symm (calm a own)
  · obtain ⟨o, -, rfl⟩ := queued j mem
    exact ⟨fun a own o' same => (by cases same; exact calm a own rfl), fun i err same => (by cases same)⟩

/-- Attaching a start to the bind of its acceptor's listener, while no other
start is in progress and unless stopped the acceptor is the one the server
answers for. -/
theorem onSettled_start {c own : CellId} {a : Nat} {l : Listener} (mem : l ∈ w.listeners.toList)
    (cell : l.bindCell = c) (owner : l.owner = a) (idle : w.starts js = [])
    (mine : S = .halted ∨ keep = some a) (sound : Sound (own :: h) socks js S keep T w) :
    Sound h socks js S keep T { w with loop := w.loop.onSettled c (.startBound a own) } := by
  have inside : c < w.loop.cells.size := cell ▸ sound.owned.bindCell_lt (List.mem_map.2 ⟨l, mem, rfl⟩)
  have outcomes : ∀ x, (w.loop.onSettled c (.startBound a own)).outcome? x = w.loop.outcome? x :=
    w.loop.outcome?_onSettled c _
  have jobs : ∀ j, j ∈ (w.loop.onSettled c (.startBound a own)).jobs ++ js ↔
      j ∈ w.loop.jobs ++ js ∨ ∃ o, w.loop.cells[c]? = some (.settled o) ∧ j = .resume (.startBound a own) o := by
    intro j
    cases found : w.loop.cells[c]? with
    | none => simp [Loop.onSettled, found]
    | some cell =>
      cases cell with
      | pending ks => simp [Loop.onSettled_of_pending _ found]
      | settled o =>
        simp [Loop.onSettled_of_settled _ found]
        tauto
  have grown : ∀ j, j ∈ w.loop.jobs ++ js → j ∈ (w.loop.onSettled c (.startBound a own)).jobs ++ js :=
    fun j old => (jobs j).2 (Or.inl old)
  have started : (({ w with loop := w.loop.onSettled c (.startBound a own) } : World).starts js).Perm [a] := by
    have empty := List.append_eq_nil_iff.1 idle
    have owes := Loop.owed_onSettled w.loop Reaction.binds inside (.startBound a own)
    simp only [World.starts, empty.2, List.append_nil]
    simpa [empty.1, Reaction.binds] using owes
  have handles := Loop.owed_onSettled w.loop Reaction.handled inside (.startBound a own)
  simp only [Reaction.handled, List.append_nil] at handles
  refine
    { owned := sound.owned.onSettled c (.startBound a own)
      waiter := fun x waiting => ?_
      binding := fun x ks a' own' pending bound => ?_
      resumed := fun a' own' o queued => ?_
      starting := fun a' member => by
        rw [List.Perm.mem_iff started, List.mem_singleton] at member
        rw [member]
        exact mine
      single := by rw [started.length_eq]; rfl
      owner := sound.owner
      paired := sound.paired
      unique := sound.unique
      settled := fun l' mem' settled => by rw [outcomes]; exact sound.settled l' mem' settled
      listening := fun i l' found listens => ?_
      failed := fun i err queued => ?_
      serving := sound.serving
      drained := sound.drained
      ready := fun a' acc found queued => ?_
      kept := sound.kept
      timed := by simpa using sound.timed
      fars := sound.fars
      held := fun k member => ?_
      stopped := sound.stopped
      quelled := fun called =>
        ((List.subperm_append_right _).2 handles.subperm).trans (sound.quelled called) }
  · obtain ⟨ks, pending, a'', own'', accepted⟩ := sound.waiter x waiting
    obtain ⟨ks', found, grown⟩ := w.loop.pending_onSettled pending c (.startBound a own)
    exact ⟨ks', found, a'', own'', grown accepted⟩
  · obtain ⟨ks₀, was, before⟩ := w.loop.pending_of_onSettled pending
    rcases before _ bound with old | ⟨rfl, same⟩
    · exact sound.binding x ks₀ a' own' was old
    · cases same
      exact ⟨l, mem, cell, owner⟩
  · rcases (jobs _).1 queued with old | ⟨o', settled, same⟩
    · obtain ⟨l', mem', owner', outcome⟩ := sound.resumed a' own' o old
      exact ⟨l', mem', owner', by rw [outcomes]; exact outcome⟩
    · cases same
      refine ⟨l, mem, owner, ?_⟩
      rw [outcomes, cell]
      simp [Loop.outcome?, settled]
  · rw [outcomes]
    rcases sound.listening i l' found listens with done | ⟨none, queued⟩
    · exact Or.inl done
    · exact Or.inr ⟨none, grown _ queued⟩
  · rcases (jobs _).1 queued with old | ⟨o', -, same⟩
    · exact sound.failed i err old
    · cases same
  · obtain ⟨claimed, l', mem', owner', bound⟩ := sound.ready a' acc found queued
    exact ⟨claimed, l', mem', owner', by rw [outcomes]; exact bound⟩
  · rcases sound.held k member with mine | closed | live | queued | shut | ⟨a'', own'', accepted⟩
    · exact Or.inl mine
    · exact Or.inr (Or.inl closed)
    · exact Or.inr (Or.inr (Or.inl live))
    · exact Or.inr (Or.inr (Or.inr (Or.inl queued)))
    · exact Or.inr (Or.inr (Or.inr (Or.inr (Or.inl (grown _ shut)))))
    · exact Or.inr (Or.inr (Or.inr (Or.inr (Or.inr ⟨a'', own'', grown _ accepted⟩))))

/-- Queueing a task that reports no bind error moves the cells it settles
from the hand to the loop. -/
theorem defer (k : Reaction) (calm : ∀ i err, k ≠ .listenFailed i err)
    (sound : Sound (k.settles ++ h) socks js S keep T w) :
    Sound h socks js S keep T { w with loop := w.loop.defer k } :=
  sound.of_loop (sound.owned.defer k) (fun x mem ks pending => ⟨ks, pending, fun _ mem => mem⟩)
    (fun x ks' a own pending bound => ⟨ks', pending, bound⟩) (fun x mem => rfl) [.task k] rfl
    (fun j mem => by
      rw [List.mem_singleton] at mem
      subst mem
      exact ⟨fun a own o same => (by cases same), fun i err same => (by cases same; exact absurd rfl (calm i err))⟩)
    (by simp) (fun _ => by simp [List.Subperm.refl]) sound.timed

theorem defer_failed {i : Nat} {l : Listener} (found : w.listeners[i]? = some l) (deaf : l.listening = false)
    (err : Failure) (sound : Sound h socks js S keep T w) :
    Sound h socks js S keep T { w with loop := w.loop.defer (.listenFailed i err) } :=
  sound.of_loop (sound.owned.defer (.listenFailed i err)) (fun x mem ks pending => ⟨ks, pending, fun _ mem => mem⟩)
    (fun x ks' a own pending bound => ⟨ks', pending, bound⟩) (fun x mem => rfl) [.task (.listenFailed i err)] rfl
    (fun j mem => by
      rw [List.mem_singleton] at mem
      subst mem
      exact ⟨fun a own o same => (by cases same), fun i' err' same => by cases same; exact ⟨l, found, deaf⟩⟩)
    (by simp) (fun _ => by simp [List.Subperm.refl]) sound.timed

/-- Timing a read out later. -/
theorem startTimer (delay r : Nat) (sound : Sound h socks js S keep T w) :
    Sound h socks js S keep T { w with loop := (w.loop.startTimer delay (.readTimedOut r)).2 } :=
  sound.of_loop (Owned.startTimer delay (.readTimedOut r) sound.owned)
    (fun x mem ks pending => ⟨ks, pending, fun _ mem => mem⟩)
    (fun x ks' a own pending bound => ⟨ks', pending, bound⟩) (fun x mem => rfl) [] (List.append_nil _).symm
    (by simp) (by rw [Loop.owed_startTimer]) (fun _ => by simp [List.Subperm.refl]) (by
      simp only [Loop.startTimer, List.mem_append, List.mem_singleton]
      rintro t (old | rfl)
      · exact sound.timed t old
      · exact ⟨r, rfl⟩)

theorem cancelTimer (t : Nat) (sound : Sound h socks js S keep T w) :
    Sound h socks js S keep T { w with loop := w.loop.cancelTimer t } :=
  sound.of_loop (sound.owned.cancelTimer t) (fun x mem ks pending => ⟨ks, pending, fun _ mem => mem⟩)
    (fun x ks' a own pending bound => ⟨ks', pending, bound⟩) (fun x mem => rfl) [] (by simp [Loop.cancelTimer])
    (by simp) (by simp) (fun _ => by simp [List.Subperm.refl]) (fun u mem => sound.timed u (List.mem_of_mem_filter mem))

/-- A timer fires: it only ever times a read out. -/
theorem fireDue {limit : Nat} {l' : Loop Reaction Value Failure} (fired : w.loop.fireDue? limit = some l')
    (sound : Sound h socks js S keep T w) : Sound h socks js S keep T { w with loop := l' } := by
  have owned := sound.owned.fireDue fired
  have owes := Loop.owed_fireDue w.loop Reaction.binds fired
  have handles := Loop.owed_fireDue w.loop Reaction.handled fired
  obtain ⟨t, t_mem, rfl⟩ := Loop.fireDue?_eq_some w.loop fired
  obtain ⟨r, task⟩ := sound.timed t t_mem
  refine sound.of_loop owned (fun x mem ks pending => ⟨ks, pending, fun _ mem => mem⟩)
    (fun x ks' a own pending bound => ⟨ks', pending, bound⟩) (fun x mem => rfl) [.task t.task] rfl
    (fun j mem => ?_) (by rw [owes]) (fun _ => by rw [handles]) (fun u mem => ?_)
  · rw [List.mem_singleton] at mem
    subst mem
    rw [task]
    exact ⟨fun a own o same => (by cases same), fun i err same => (by cases same)⟩
  · exact sound.timed u (List.mem_of_mem_filter mem)

/-- The clock moves. -/
theorem clock (t : Nat) (sound : Sound h socks js S keep T w) :
    Sound h socks js S keep T { w with loop := { w.loop with clock := t } } :=
  sound.of_loop (sound.owned.loop_step (List.Subperm.refl _) le_rfl fun _ _ pending => pending.of_cells rfl)
    (fun x mem ks pending => ⟨ks, pending, fun _ mem => mem⟩)
    (fun x ks' a own pending bound => ⟨ks', pending, bound⟩) (fun x mem => rfl) [] (List.append_nil _).symm
    (by simp) (List.Perm.refl _) (fun _ => List.Subperm.refl _) sound.timed

/-- Taking the first job off the queue to run it: the job is followed in
`js`, and the cells it settles are in hand. -/
theorem pop {j : Job Reaction Value Failure} {rest : List (Job Reaction Value Failure)}
    (queued : w.loop.jobs = j :: rest) (sound : Sound h socks js S keep T w) :
    Sound (Loop.Job.owed Reaction.settles j ++ Loop.Job.tasked Reaction.settles j ++ h) socks (j :: js) S
      keep T { w with loop := { w.loop with jobs := rest } } := by
  have moved : ∀ x, x ∈ rest ++ j :: js → x ∈ w.loop.jobs ++ js := by
    intro x mem
    rw [queued]
    simp only [List.mem_append, List.mem_cons] at mem ⊢
    tauto
  have back : ∀ x, x ∈ w.loop.jobs ++ js → x ∈ rest ++ j :: js := by
    intro x mem
    rw [queued] at mem
    simp only [List.mem_append, List.mem_cons] at mem ⊢
    tauto
  have shifted : ∀ {β : Type} (react : Reaction → List β),
      ((({ w.loop with jobs := rest } : Loop Reaction Value Failure).owed react) ++
        (j :: js).flatMap (Loop.Job.owed react)).Perm (w.loop.owed react ++ js.flatMap (Loop.Job.owed react)) := by
    intro β react
    rw [List.flatMap_cons, ← List.append_assoc]
    exact ((Loop.owed_of_cons w.loop react queued).append_right _).symm
  exact
    { owned := sound.owned.pop queued
      waiter := sound.waiter
      binding := sound.binding
      resumed := fun a own o mem => sound.resumed a own o (moved _ mem)
      starting := fun a mem => sound.starting a ((shifted Reaction.binds).subset mem)
      single := (shifted Reaction.binds).length_eq.trans_le sound.single
      owner := sound.owner
      paired := sound.paired
      unique := sound.unique
      settled := sound.settled
      listening := fun i l found listens => by
        rcases sound.listening i l found listens with done | ⟨none, queued⟩
        · exact Or.inl done
        · exact Or.inr ⟨none, back _ queued⟩
      failed := fun i err mem => sound.failed i err (moved _ mem)
      serving := sound.serving
      drained := sound.drained
      ready := sound.ready
      kept := sound.kept
      timed := sound.timed
      fars := sound.fars
      held := fun k mem => by
        rcases sound.held k mem with mine | closed | live | ready | shut | ⟨a, own, accepted⟩
        · exact Or.inl mine
        · exact Or.inr (Or.inl closed)
        · exact Or.inr (Or.inr (Or.inl live))
        · exact Or.inr (Or.inr (Or.inr (Or.inl ready)))
        · exact Or.inr (Or.inr (Or.inr (Or.inr (Or.inl (back _ shut)))))
        · exact Or.inr (Or.inr (Or.inr (Or.inr (Or.inr ⟨a, own, back _ accepted⟩))))
      stopped := sound.stopped
      quelled := fun called => (shifted Reaction.handled).subperm.trans (sound.quelled called) }

/-- A job that ran is no longer followed, once what it carried is
elsewhere: the endpoint a close was queued for is in hand or closed, the connection an
accept loop was resumed with is in hand, and the listener that reported
listening is bound or no longer listens. -/
theorem drop {j : Job Reaction Value Failure} (sound : Sound h socks (j :: js) S keep T w)
    (shut : ∀ s, j = .task (.shut s) → s ∈ socks ∨ w.isClosed s = true)
    (accepted : ∀ a own s, j = .resume (.loopAccepted a own) (.fulfilled (.socket s)) → s ∈ socks)
    (listens : ∀ i, j = .task (.listenDone i) → ∀ l, w.listeners[i]? = some l → l.listening = true →
      (∃ v, w.loop.outcome? l.bindCell = some (.fulfilled v)) ∨
        (w.loop.outcome? l.bindCell = none ∧ .task (.listenDone i) ∈ w.loop.jobs ++ js)) :
    Sound h socks js S keep T w := by
  have within : ∀ x, x ∈ w.loop.jobs ++ js → x ∈ w.loop.jobs ++ j :: js := by
    intro x mem
    simp only [List.mem_append, List.mem_cons] at mem ⊢
    tauto
  have fewer : ∀ {β : Type} (react : Reaction → List β),
      (w.loop.owed react ++ js.flatMap (Loop.Job.owed react)).Sublist
        (w.loop.owed react ++ (j :: js).flatMap (Loop.Job.owed react)) := by
    intro β react
    rw [List.flatMap_cons]
    exact (List.sublist_append_right _ _).append_left _
  refine
    { sound with
      resumed := fun a own o mem => sound.resumed a own o (within _ mem)
      starting := fun a mem => sound.starting a ((fewer Reaction.binds).subset mem)
      single := ((fewer Reaction.binds).length_le).trans sound.single
      listening := fun i l found listens' => ?_
      failed := fun i err mem => sound.failed i err (within _ mem)
      held := fun k mem => ?_
      quelled := fun called => (fewer Reaction.handled).subperm.trans (sound.quelled called) }
  · rcases sound.listening i l found listens' with done | ⟨none, queued⟩
    · exact Or.inl done
    · simp only [List.mem_append, List.mem_cons] at queued
      rcases queued with old | same | later
      · exact Or.inr ⟨none, List.mem_append_left _ old⟩
      · exact listens i same.symm l found listens'
      · exact Or.inr ⟨none, List.mem_append_right _ later⟩
  · rcases sound.held k mem with mine | closed | live | ready | queued | ⟨a, own, resumed⟩
    · exact Or.inl mine
    · exact Or.inr (Or.inl closed)
    · exact Or.inr (Or.inr (Or.inl live))
    · exact Or.inr (Or.inr (Or.inr (Or.inl ready)))
    · simp only [List.mem_append, List.mem_cons] at queued
      rcases queued with old | same | later
      · exact Or.inr (Or.inr (Or.inr (Or.inr (Or.inl (List.mem_append_left _ old)))))
      · rcases shut _ same.symm with mine | closed
        · exact Or.inl mine
        · exact Or.inr (Or.inl closed)
      · exact Or.inr (Or.inr (Or.inr (Or.inr (Or.inl (List.mem_append_right _ later)))))
    · simp only [List.mem_append, List.mem_cons] at resumed
      rcases resumed with old | same | later
      · exact Or.inr (Or.inr (Or.inr (Or.inr (Or.inr ⟨a, own, List.mem_append_left _ old⟩))))
      · exact Or.inl (accepted a own _ same.symm)
      · exact Or.inr (Or.inr (Or.inr (Or.inr (Or.inr ⟨a, own, List.mem_append_right _ later⟩))))

end Loop

end Sound

end Machine
end HttpStub
