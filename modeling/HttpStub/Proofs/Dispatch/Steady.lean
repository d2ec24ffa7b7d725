import Mathlib
import HttpStub.Proofs.Machine.Owners

/-!
# What the rest of the machine leaves alone of the accept loop's work

The accept loop hands a connection to the dispatcher and waits for it; a
sequential dispatcher waits for the handler, and the handler for its
stages.  Each of these waits is a reaction attached to a cell that only the
code waiting on it settles.  The network, the stages of a handler that
attach nothing the loop follows, and the operations of a script settle none
of those cells, attach none of those reactions and leave the server's phase
and dispatch mode alone.

`Steady T sc w` says that of a world `w`, against a `Scene` `sc` taken
before: what waits or is queued, weighed by `T`, is as it was; the `kept`
cells still wait, with every reaction that waited on them, and no record
holds one of them; every reaction of weight that waits on a cell waited on
it before; the job queue has only grown, and each resumption of weight it
gained comes from a cell that is not kept; and no acceptor is closed and
no refusal of a closed one is anywhere, as holds until the server is
stopped.

This module gives the invariant and how each primitive change of a world
keeps it; the functions of the machine are assembled from these.
-/

namespace HttpStub
namespace Machine

open Async

/-- An outcome other than the refusal of a closed acceptor. -/
def Clear : Outcome Value Failure → Prop
  | .rejected f => f.kind ≠ .acceptorClosed
  | .fulfilled _ => True

@[simp] theorem clear_fulfilled (v : Value) : Clear (.fulfilled v) := trivial

@[simp] theorem clear_rejected (f : Failure) : Clear (.rejected f) ↔ f.kind ≠ .acceptorClosed := Iff.rfl

/-! Only the refusal of a closed acceptor has its kind. -/

@[simp] theorem Failure.kind_plain (m : String) : (Failure.plain m).kind = .error := rfl
@[simp] theorem Failure.kind_setup (m : String) (c : Option Failure) : (Failure.setup m c).kind = .setup := rfl
@[simp] theorem Failure.kind_accept (m : String) (c : Option Failure) : (Failure.accept m c).kind = .accept := rfl
@[simp] theorem Failure.kind_readFailed (c : Failure) : (Failure.readFailed c).kind = .read := rfl
@[simp] theorem Failure.kind_readTimeout (ms : Double) : (Failure.readTimeout ms).kind = .read := rfl
@[simp] theorem Failure.kind_writeFailed (c : Failure) : (Failure.writeFailed c).kind = .write := rfl

@[simp] theorem clear_told (fault : Option String) :
    Clear (fault.elim (.fulfilled .unit) fun m => .rejected (Failure.plain m)) := by
  cases fault <;> simp

/-- The reactions that pass the accept loop's work along: the loop waiting
for an accept or a dispatch, a sequential dispatch waiting for its handler,
and a handler waiting for its connection to be served. -/
def Reaction.relays : Reaction → Bool
  | .loopAccepted .. | .loopDispatched .. | .dispatchDone _ | .handleServed .. => true
  | _ => false

/-- The reactions of the accept loop itself. -/
def Reaction.loops : Reaction → Bool
  | .loopAccepted .. | .loopDispatched .. => true
  | _ => false

theorem Reaction.loops_eq_false {r : Reaction} (calm : r.relays = false) : r.loops = false := by
  cases r <;> first | rfl | cases calm

/-- A world in which no acceptor is closed and no refusal of a closed one is
anywhere: not queued at an acceptor, not the outcome of a cell or of a
queued job, not an endpoint's error. -/
structure Unrefused (w : World) : Prop where
  acceptors : ∀ (a : Nat) (acc : Acceptor), w.acceptors[a]? = some acc →
    acc.closed = false ∧ ∀ f, Arrival.failure f ∈ acc.ready → f.kind ≠ .acceptorClosed
  cells : ∀ (c : CellId) (o : Outcome Value Failure), w.loop.cells[c]? = some (.settled o) → Clear o
  jobs : ∀ (k : Reaction) (o : Outcome Value Failure), Job.resume k o ∈ w.loop.jobs → Clear o
  errors : ∀ (s : Nat) (e : Endpoint) (f : Failure), w.sockets[s]? = some e → e.lastError = some f →
    f.kind ≠ .acceptorClosed

/-- What of a server the dispatch of its connections depends on: its phase
and how it dispatches. -/
def Server.outline (s : Server) : Phase × DispatchMode :=
  (s.phase, s.dispatcher.mode)

/-- What a world looked like, for `Steady` to compare a later one against. -/
structure Scene (β : Type) where
  /-- The server's outline, if there is a server. -/
  outline : Option (Phase × DispatchMode)
  /-- The weight of what waits on a cell or is queued. -/
  owed : Multiset β
  /-- The cells that must go on waiting. -/
  kept : List CellId
  /-- Which reaction waited on which cell. -/
  waits : CellId → Reaction → Prop
  /-- The job queue. -/
  jobs : List (Job Reaction Value Failure)

variable {β : Type}

/-- The scene of a world, with the cells it keeps. -/
def Scene.of (T : Reaction → List β) (w : World) (kept : List CellId) : Scene β where
  outline := w.server.map Server.outline
  owed := w.loop.owed T
  kept := kept
  waits := fun c k => ∃ ks, w.loop.cells[c]? = some (.pending ks) ∧ k ∈ ks
  jobs := w.loop.jobs

@[simp] theorem Scene.of_kept (T : Reaction → List β) (w : World) (kept : List CellId) :
    (Scene.of T w kept).kept = kept := rfl

@[simp] theorem Scene.of_jobs (T : Reaction → List β) (w : World) (kept : List CellId) :
    (Scene.of T w kept).jobs = w.loop.jobs := rfl

/-- A world that, against the scene `sc`, still owes what it owed under `T`,
keeps the kept cells waiting, has attached nothing of weight, has only
queued more, and refuses nothing. -/
structure Steady (T : Reaction → List β) (sc : Scene β) (w : World) : Prop where
  outline : w.server.map Server.outline = sc.outline
  owed : (w.loop.owed T : Multiset β) = sc.owed
  kept : ∀ c ∈ sc.kept, ∃ ks, w.loop.cells[c]? = some (.pending ks) ∧ ∀ k, sc.waits c k → k ∈ ks
  apart : ∀ c ∈ sc.kept, c ∉ w.keepers
  waits : ∀ c ks, w.loop.cells[c]? = some (.pending ks) → ∀ k ∈ ks, T k ≠ [] → sc.waits c k
  queue : ∃ more, w.loop.jobs = sc.jobs ++ more ∧
    ∀ k o, Job.resume k o ∈ more → T k ≠ [] → ∃ c, c ∉ sc.kept ∧ sc.waits c k
  unrefused : Unrefused w

variable {T : Reaction → List β} {sc : Scene β} {w : World}

/-- A world is steady against its own scene when the cells it keeps wait,
no record holds them, and it refuses nothing. -/
theorem Steady.of_scene {kept : List CellId} (pending : ∀ c ∈ kept, w.loop.Pending c)
    (apart : ∀ c ∈ kept, c ∉ w.keepers) (unrefused : Unrefused w) : Steady T (Scene.of T w kept) w where
  outline := rfl
  owed := rfl
  kept c mem := by
    obtain ⟨ks, found⟩ := pending c mem
    exact ⟨ks, found, fun k ⟨ks', found', waiting⟩ => by rw [found] at found'; cases found'; exact waiting⟩
  apart := apart
  waits c ks found k mem _ := ⟨ks, found, mem⟩
  queue := ⟨[], by simp [Scene.of], by simp⟩
  unrefused := unrefused

/-- A steady world is steady against its own scene keeping, besides the
scene's cells, more cells that wait and were made after every cell a record
holds. -/
theorem Steady.keep_more (steady : Steady T sc w) {n : Nat} (bounded : ∀ c ∈ w.keepers, c < n)
    {more : List CellId} (pending : ∀ c ∈ more, w.loop.Pending c) (above : ∀ c ∈ more, n ≤ c) :
    Steady T (Scene.of T w (sc.kept ++ more)) w := by
  refine Steady.of_scene (fun x mem => ?_) (fun x mem held => ?_) steady.unrefused
  · rcases List.mem_append.1 mem with old | new
    · obtain ⟨ks, found, -⟩ := steady.kept x old
      exact ⟨ks, found⟩
    · exact pending x new
  · rcases List.mem_append.1 mem with old | new
    · exact steady.apart x old held
    · exact Nat.not_le_of_lt (bounded x held) (above x new)

/-- What a scene says with no weight on anything. -/
def Scene.unweigh (sc : Scene β) : Scene Unit where
  outline := sc.outline
  owed := 0
  kept := sc.kept
  waits := sc.waits
  jobs := sc.jobs

/-- No reaction weighs anything. -/
def Reaction.unweighed : Reaction → List Unit := fun _ => []

namespace Steady

/-- A world steady against a scene is steady against it with no weight: it
keeps the outline, the kept cells waiting, the queue and every refusal
away, whatever is attached since. -/
theorem unweigh {w : World} (steady : Steady T sc w) : Steady Reaction.unweighed sc.unweigh w where
  outline := steady.outline
  owed := by
    have none : w.loop.owed Reaction.unweighed = [] := by
      simp only [Loop.owed, List.append_eq_nil_iff, List.flatMap_eq_nil_iff]
      constructor
      · intro x _
        cases x <;> simp [Loop.Cell.owed, Reaction.unweighed]
      · intro x _
        cases x <;> rfl
    rw [none]
    rfl
  kept := steady.kept
  apart := steady.apart
  waits _ _ _ _ _ weighs := absurd rfl weighs
  queue := by
    obtain ⟨more, jobs, -⟩ := steady.queue
    exact ⟨more, jobs, fun _ _ _ weighs => absurd rfl weighs⟩
  unrefused := steady.unrefused

/-- Steady against a world that was steady against a scene, keeping at least
the scene's cells, is steady against the scene. -/
theorem trans {w w' : World} {kept : List CellId} (first : Steady T sc w)
    (second : Steady T (Scene.of T w kept) w') (sub : sc.kept ⊆ kept) : Steady T sc w' where
  outline := second.outline.trans first.outline
  owed := second.owed.trans first.owed
  kept c mem := by
    obtain ⟨ks, found, waiting⟩ := first.kept c mem
    obtain ⟨ks', found', grown⟩ := second.kept c (sub mem)
    exact ⟨ks', found', fun k waited => grown k ⟨ks, found, waiting k waited⟩⟩
  apart c mem := second.apart c (sub mem)
  waits c ks found k mem weighs := by
    obtain ⟨ks₀, found₀, mem₀⟩ := second.waits c ks found k mem weighs
    exact first.waits c ks₀ found₀ k mem₀ weighs
  queue := by
    obtain ⟨more, jobs, gained⟩ := first.queue
    obtain ⟨more', jobs', gained'⟩ := second.queue
    refine ⟨more ++ more', by rw [jobs', show (Scene.of T w kept).jobs = w.loop.jobs from rfl, jobs,
      List.append_assoc], fun k o mem weighs => ?_⟩
    rcases List.mem_append.1 mem with old | new
    · exact gained k o old weighs
    · obtain ⟨c, free, ks, found, waiting⟩ := gained' k o new weighs
      exact ⟨c, fun kept => free (sub kept), first.waits c ks found k waiting weighs⟩
  unrefused := second.unrefused

theorem still_waits {w' : World} {kept : List CellId} (steady : Steady T (Scene.of T w kept) w') {c : CellId}
    (mem : c ∈ kept) {ks : List Reaction} {k : Reaction} (found : w.loop.cells[c]? = some (.pending ks))
    (waiting : k ∈ ks) : ∃ ks', w'.loop.cells[c]? = some (.pending ks') ∧ k ∈ ks' := by
  obtain ⟨ks', found', grown⟩ := steady.kept c mem
  exact ⟨ks', found', grown k ⟨ks, found, waiting⟩⟩

theorem still_queued {w' : World} {kept : List CellId} (steady : Steady T (Scene.of T w kept) w')
    {j : Job Reaction Value Failure} (queued : j ∈ w.loop.jobs) : j ∈ w'.loop.jobs := by
  obtain ⟨more, jobs, -⟩ := steady.queue
  rw [jobs]
  exact List.mem_append_left _ queued

theorem kept_lt (steady : Steady T sc w) {c : CellId} (mem : c ∈ sc.kept) : c < w.loop.cells.size := by
  obtain ⟨ks, found, -⟩ := steady.kept c mem
  exact Loop.Pending.lt ⟨ks, found⟩

theorem size_not_kept (steady : Steady T sc w) : w.loop.cells.size ∉ sc.kept :=
  fun mem => Nat.lt_irrefl _ (steady.kept_lt mem)

theorem not_kept_of_keeper (steady : Steady T sc w) {c : CellId} (held : c ∈ w.keepers) : c ∉ sc.kept :=
  fun mem => steady.apart c mem held

/-! ## Changes of the loop -/

/-- A change of the loop alone keeps the invariant when it keeps what is
owed, keeps the kept cells waiting with what waited on them, attaches
nothing of weight, queues behind what was queued only reactions of weight
that waited on cells that are not kept, and settles no cell with a
refusal. -/
theorem loop_step (steady : Steady T sc w) {l : Loop Reaction Value Failure}
    (owed : (l.owed T : Multiset β) = w.loop.owed T)
    (kept : ∀ c ∈ sc.kept, ∀ ks, w.loop.cells[c]? = some (Cell.pending ks) →
      ∃ ks', l.cells[c]? = some (Cell.pending ks') ∧ ks ⊆ ks')
    (waits : ∀ (c : CellId) (ks' : List Reaction), l.cells[c]? = some (Cell.pending ks') →
      ∀ k ∈ ks', T k ≠ [] → ∃ ks, w.loop.cells[c]? = some (Cell.pending ks) ∧ k ∈ ks)
    (queue : ∃ more, l.jobs = w.loop.jobs ++ more ∧ ∀ k o, Job.resume k o ∈ more → T k ≠ [] →
      ∃ c ks, c ∉ sc.kept ∧ w.loop.cells[c]? = some (Cell.pending ks) ∧ k ∈ ks)
    (cells : ∀ (c : CellId) (o : Outcome Value Failure), l.cells[c]? = some (Cell.settled o) →
      w.loop.cells[c]? = some (Cell.settled o) ∨ Clear o)
    (jobs : ∀ k o, Job.resume k o ∈ l.jobs → Job.resume k o ∈ w.loop.jobs ∨ Clear o) :
    Steady T sc { w with loop := l } where
  outline := steady.outline
  owed := owed.trans steady.owed
  kept c mem := by
    obtain ⟨ks, found, waiting⟩ := steady.kept c mem
    obtain ⟨ks', found', grown⟩ := kept c mem ks found
    exact ⟨ks', found', fun k waited => grown (waiting k waited)⟩
  apart := steady.apart
  waits c ks' found k mem weighs := by
    obtain ⟨ks, found₀, mem₀⟩ := waits c ks' found k mem weighs
    exact steady.waits c ks found₀ k mem₀ weighs
  queue := by
    obtain ⟨more, grown, from_cells⟩ := queue
    obtain ⟨more₀, queued, gained⟩ := steady.queue
    refine ⟨more₀ ++ more, by simp [grown, queued], fun k o mem weighs => ?_⟩
    rcases List.mem_append.1 mem with old | new
    · exact gained k o old weighs
    · obtain ⟨c, ks, free, found, waiting⟩ := from_cells k o new weighs
      exact ⟨c, free, steady.waits c ks found k waiting weighs⟩
  unrefused :=
    { acceptors := steady.unrefused.acceptors
      cells := fun c o found => (cells c o found).elim (steady.unrefused.cells c o) id
      jobs := fun k o mem => (jobs k o mem).elim (steady.unrefused.jobs k o) id
      errors := steady.unrefused.errors }

theorem fresh (steady : Steady T sc w) : Steady T sc { w with loop := w.loop.fresh.2 } := by
  have old : ∀ c, c < w.loop.cells.size → w.loop.fresh.2.cells[c]? = w.loop.cells[c]? := fun c inside => by
    rw [Loop.getElem?_fresh, if_neg (Nat.ne_of_lt inside)]
  refine steady.loop_step (by simp) (fun c mem ks found => ⟨ks, by rw [old c (steady.kept_lt mem)]; exact found,
    fun _ mem => mem⟩) (fun c ks' found k mem _ => ?_) ⟨[], by simp, by simp⟩
    (fun c o found => ?_) (fun k o mem => Or.inl mem)
  · rw [Loop.getElem?_fresh] at found
    split at found
    · cases found
      cases mem
    · exact ⟨ks', found, mem⟩
  · rw [Loop.getElem?_fresh] at found
    split at found
    · cases found
    · exact Or.inl found

theorem settledCell (steady : Steady T sc w) {o : Outcome Value Failure} (clear : Clear o) :
    Steady T sc { w with loop := (w.loop.settledCell o).2 } := by
  have cells : ∀ c, (w.loop.settledCell o).2.cells[c]? =
      if c = w.loop.cells.size then some (.settled o) else w.loop.cells[c]? := fun c => by
    simp [Loop.settledCell, Array.getElem?_push]
  refine steady.loop_step (by simp) (fun c mem ks found => ⟨ks, ?_, fun _ mem => mem⟩)
    (fun c ks' found k mem _ => ?_) ⟨[], by simp [Loop.settledCell], by simp⟩
    (fun c o' found => ?_) (fun k o' mem => Or.inl (by simpa [Loop.settledCell] using mem))
  · rw [cells, if_neg (Nat.ne_of_lt (steady.kept_lt mem))]
    exact found
  · rw [cells] at found
    split at found
    · cases found
    · exact ⟨ks', found, mem⟩
  · rw [cells] at found
    split at found
    · cases found
      exact Or.inr clear
    · exact Or.inl found

/-- Settling a cell that is not kept, with an outcome that is no refusal. -/
theorem settle (steady : Steady T sc w) {c : CellId} (free : c ∉ sc.kept) {o : Outcome Value Failure}
    (clear : Clear o) : Steady T sc { w with loop := w.loop.settle c o } := by
  by_cases waiting : ∃ ks, w.loop.cells[c]? = some (.pending ks)
  · obtain ⟨ks, pending⟩ := waiting
    have cells := Loop.getElem?_settle w.loop pending (o := o)
    refine steady.loop_step (Multiset.coe_eq_coe.2 (Loop.owed_settle _ _ c o))
      (fun x mem ks' found => ⟨ks', ?_, fun _ mem => mem⟩) (fun x ks' found k mem _ => ?_)
      ⟨ks.map (Job.resume · o), by rw [Loop.settle_of_pending _ pending], fun k o' mem _ => ?_⟩
      (fun x o' found => ?_) (fun k o' mem => ?_)
    · rw [cells, if_neg (fun same : c = x => free (same ▸ mem))]
      exact found
    · rw [cells] at found
      split at found
      · cases found
      · exact ⟨ks', found, mem⟩
    · obtain ⟨k', waiting, same⟩ := List.mem_map.1 mem
      cases same
      exact ⟨c, ks, free, pending, waiting⟩
    · rw [cells] at found
      split at found
      · cases found
        exact Or.inr clear
      · exact Or.inl found
    · rw [Loop.settle_of_pending _ pending] at mem
      rcases List.mem_append.1 mem with old | new
      · exact Or.inl old
      · obtain ⟨k', -, same⟩ := List.mem_map.1 new
        cases same
        exact Or.inr clear
  · rw [Loop.settle_of_not_pending _ (fun ks found => waiting ⟨ks, found⟩)]
    exact steady

/-- Attaching a reaction of no weight. -/
theorem onSettled (steady : Steady T sc w) (c : CellId) {k : Reaction} (silent : T k = []) :
    Steady T sc { w with loop := w.loop.onSettled c k } := by
  have owed : ((w.loop.onSettled c k).owed T : Multiset β) = w.loop.owed T :=
    Multiset.coe_eq_coe.2 (Loop.owed_onSettled_silent _ _ c silent)
  obtain ⟨more, jobs, queued⟩ := w.loop.jobs_onSettled c k
  refine steady.loop_step owed (fun x _ ks found => w.loop.pending_onSettled found c k)
    (fun x ks' found k' mem weighs => ?_) ⟨more, jobs, fun k' o mem weighs => ?_⟩
    (fun x o found => Or.inl (w.loop.settled_of_onSettled found)) (fun k' o mem => ?_)
  · obtain ⟨ks, was, before⟩ := w.loop.pending_of_onSettled found
    rcases before k' mem with old | ⟨-, rfl⟩
    · exact ⟨ks, was, old⟩
    · exact absurd silent weighs
  · obtain ⟨o', -, same⟩ := queued _ mem
    cases same
    exact absurd silent weighs
  · rw [jobs] at mem
    rcases List.mem_append.1 mem with old | new
    · exact Or.inl old
    · obtain ⟨o', settled, same⟩ := queued _ new
      cases same
      exact Or.inr (steady.unrefused.cells c o settled)

theorem defer (steady : Steady T sc w) (k : Reaction) : Steady T sc { w with loop := w.loop.defer k } :=
  steady.loop_step (by simp) (fun _ _ ks found => ⟨ks, found, fun _ mem => mem⟩)
    (fun _ ks found k mem _ => ⟨ks, found, mem⟩)
    ⟨[.task k], rfl, fun _ _ mem => by simp at mem⟩ (fun _ _ found => Or.inl found)
    (fun k' o mem => Or.inl (by simpa [Loop.defer] using mem))

theorem startTimer (steady : Steady T sc w) (delay : Nat) (k : Reaction) :
    Steady T sc { w with loop := (w.loop.startTimer delay k).2 } :=
  steady.loop_step (by simp) (fun _ _ ks found => ⟨ks, found, fun _ mem => mem⟩)
    (fun _ ks found k mem _ => ⟨ks, found, mem⟩) ⟨[], by simp [Loop.startTimer], by simp⟩
    (fun _ _ found => Or.inl found) (fun _ _ mem => Or.inl mem)

theorem cancelTimer (steady : Steady T sc w) (t : Nat) :
    Steady T sc { w with loop := w.loop.cancelTimer t } :=
  steady.loop_step (by simp) (fun _ _ ks found => ⟨ks, found, fun _ mem => mem⟩)
    (fun _ ks found k mem _ => ⟨ks, found, mem⟩) ⟨[], by simp [Loop.cancelTimer], by simp⟩
    (fun _ _ found => Or.inl found) (fun _ _ mem => Or.inl mem)

/-- A timer that fires queues its task. -/
theorem fireDue (steady : Steady T sc w) {limit : Nat} {l : Loop Reaction Value Failure}
    (fired : w.loop.fireDue? limit = some l) : Steady T sc { w with loop := l } := by
  obtain ⟨t, -, rfl⟩ := Loop.fireDue?_eq_some w.loop fired
  exact steady.loop_step (by rw [Loop.owed_fireDue w.loop T fired]) (fun _ _ ks found => ⟨ks, found, fun _ mem => mem⟩)
    (fun _ ks found k mem _ => ⟨ks, found, mem⟩) ⟨[.task t.task], rfl, fun _ _ mem => by simp at mem⟩
    (fun _ _ found => Or.inl found) (fun k' o mem => Or.inl (by simpa using mem))

/-- The clock moves. -/
theorem clock (steady : Steady T sc w) (t : Nat) : Steady T sc { w with loop := { w.loop with clock := t } } :=
  steady.loop_step rfl (fun _ _ ks found => ⟨ks, found, fun _ mem => mem⟩)
    (fun _ ks found k mem _ => ⟨ks, found, mem⟩) ⟨[], by simp, by simp⟩
    (fun _ _ found => Or.inl found) (fun _ _ mem => Or.inl mem)

end Steady

/-! ## Changes of the records

A record may take on a cell only if it is not kept, and the server's phase
and dispatch mode stay as they are.  An acceptor stays open and queues no
refusal, and an endpoint records no refusal as its error. -/

namespace Unrefused

variable {w' : World}

theorem of_same (u : Unrefused w) (loop : w'.loop = w.loop) (acceptors : w'.acceptors = w.acceptors)
    (sockets : w'.sockets = w.sockets) : Unrefused w' where
  acceptors a acc found := u.acceptors a acc (by rwa [acceptors] at found)
  cells c o found := u.cells c o (by rwa [loop] at found)
  jobs k o mem := u.jobs k o (by rwa [loop] at mem)
  errors s e f found := u.errors s e f (by rwa [sockets] at found)

/-- The acceptor the machine reads at `a`, a default one if there is none,
is open and queues no refusal. -/
theorem acceptor_getD (u : Unrefused w) (a : Nat) :
    (w.acceptors[a]?.getD {}).closed = false ∧
      ∀ f, Arrival.failure f ∈ (w.acceptors[a]?.getD {}).ready → f.kind ≠ .acceptorClosed := by
  cases found : w.acceptors[a]? with
  | none => exact ⟨rfl, fun f mem => by simp at mem⟩
  | some acc => exact u.acceptors a acc found

theorem endpoint_getD (u : Unrefused w) (s : Nat) (f : Failure)
    (error : (w.sockets[s]?.getD {}).lastError = some f) : f.kind ≠ .acceptorClosed := by
  cases found : w.sockets[s]? with
  | none => rw [found] at error; cases error
  | some e => rw [found] at error; exact u.errors s e f found error

end Unrefused

namespace Steady

variable {w' : World}

/-- A change of the records alone keeps the invariant when it keeps the
server's outline, every cell a record takes on is not kept, and it refuses
nothing. -/
theorem rekeep (steady : Steady T sc w) (loop : w'.loop = w.loop)
    (outline : w'.server.map Server.outline = w.server.map Server.outline)
    (keepers : ∀ c ∈ w'.keepers, c ∈ w.keepers ∨ c ∉ sc.kept) (unrefused : Unrefused w') :
    Steady T sc w' where
  outline := outline.trans steady.outline
  owed := by rw [loop]; exact steady.owed
  kept c mem := by rw [loop]; exact steady.kept c mem
  apart c mem held := (keepers c held).elim (steady.apart c mem) (· mem)
  waits c ks found := steady.waits c ks (by rwa [loop] at found)
  queue := by rw [loop]; exact steady.queue
  unrefused := unrefused

/-- A change of what no record of cells, no outline and no refusal reads. -/
theorem aside (steady : Steady T sc w) (loop : w'.loop = w.loop) (server : w'.server = w.server)
    (keepers : w'.keepers = w.keepers) (acceptors : w'.acceptors = w.acceptors)
    (sockets : w'.sockets = w.sockets) : Steady T sc w' :=
  steady.rekeep loop (by rw [server]) (fun c mem => Or.inl (keepers ▸ mem))
    (steady.unrefused.of_same loop acceptors sockets)

theorem modifyReader (steady : Steady T sc w) (r : Nat) {f : Reader → Reader} (same : ∀ x, (f x).cell = x.cell) :
    Steady T sc { w with readers := w.readers.modify r f } :=
  steady.aside rfl rfl (by simp [World.keepers, World.bindCells, World.waiters, World.poolWaiters,
    Owned.map_modify_eq f _ same]) rfl rfl

theorem pushReader (steady : Steady T sc w) {rd : Reader} (free : rd.cell ∉ sc.kept) :
    Steady T sc { w with readers := w.readers.push rd } := by
  refine steady.rekeep rfl rfl (fun c mem => ?_) (steady.unrefused.of_same rfl rfl rfl)
  simp only [World.keepers, World.bindCells, World.waiters, World.poolWaiters, Array.toList_push,
    List.map_append, List.map_cons, List.map_nil, List.mem_append, List.mem_cons, List.not_mem_nil,
    or_false] at mem ⊢
  rcases mem with (((((old | rfl) | bound) | waiting) | idle) | reply) <;> tauto

theorem modifyClient (steady : Steady T sc w) (i : Nat) {f : Client → Client} (same : ∀ x, (f x).reply = x.reply) :
    Steady T sc { w with clients := w.clients.modify i f } :=
  steady.aside rfl rfl (by simp [World.keepers, World.bindCells, World.waiters, World.poolWaiters,
    Owned.map_modify_eq f _ same]) rfl rfl

theorem pushClient (steady : Steady T sc w) {k : Client} (free : k.reply ∉ sc.kept) :
    Steady T sc { w with clients := w.clients.push k } := by
  refine steady.rekeep rfl rfl (fun c mem => ?_) (steady.unrefused.of_same rfl rfl rfl)
  simp only [World.keepers, World.bindCells, World.waiters, World.poolWaiters, Array.toList_push,
    List.map_append, List.map_cons, List.map_nil, List.mem_append, List.mem_cons, List.not_mem_nil,
    or_false] at mem ⊢
  rcases mem with ((((reading | bound) | waiting) | idle) | old | rfl) <;> tauto

theorem modifyListener (steady : Steady T sc w) (i : Nat) {f : Listener → Listener}
    (same : ∀ x, (f x).bindCell = x.bindCell) :
    Steady T sc { w with listeners := w.listeners.modify i f } :=
  steady.aside rfl rfl (by simp [World.keepers, World.bindCells, World.waiters, World.poolWaiters,
    Owned.map_modify_eq f _ same]) rfl rfl

/-- A new listener, which becomes the one clients connect to. -/
theorem pushListener (steady : Steady T sc w) {l : Listener} (free : l.bindCell ∉ sc.kept) (current : Option Nat) :
    Steady T sc { w with listeners := w.listeners.push l, current := current } := by
  refine steady.rekeep rfl rfl (fun c mem => ?_) (steady.unrefused.of_same rfl rfl rfl)
  simp only [World.keepers, World.bindCells, World.waiters, World.poolWaiters, Array.toList_push,
    List.map_append, List.map_cons, List.map_nil, List.mem_append, List.mem_cons, List.not_mem_nil,
    or_false] at mem ⊢
  rcases mem with ((((reading | old | rfl) | waiting) | idle) | reply) <;> tauto

/-- Changing an endpoint so that any error it records is no refusal. -/
theorem modifyEndpoint (steady : Steady T sc w) (s : Nat) {f : Endpoint → Endpoint}
    (errors : ∀ e x, (f e).lastError = some x → e.lastError = some x ∨ x.kind ≠ .acceptorClosed) :
    Steady T sc { w with sockets := w.sockets.modify s f } := by
  refine steady.rekeep rfl rfl (fun c mem => Or.inl mem) ?_
  refine { steady.unrefused with
    errors := fun i e x found error => ?_ }
  simp only [Array.getElem?_modify] at found
  split at found
  · obtain ⟨e₀, old, rfl⟩ := Option.map_eq_some_iff.1 found
    rcases errors e₀ x error with kept | clear
    · exact steady.unrefused.errors i e₀ x old kept
    · exact clear
  · exact steady.unrefused.errors i e x found error

/-- Two new endpoints, with no error. -/
theorem pushEndpoints (steady : Steady T sc w) (a b : Nat) :
    Steady T sc { w with sockets := (w.sockets.push { peer := a }).push { peer := b } } := by
  refine steady.rekeep rfl rfl (fun c mem => Or.inl mem) ?_
  refine { steady.unrefused with
    errors := fun i e x found error => ?_ }
  simp only [Array.getElem?_push] at found
  split at found
  · cases found
    cases error
  · split at found
    · cases found
      cases error
    · exact steady.unrefused.errors i e x found error

/-- Replacing an acceptor by one that stays open, queues no refusal, and
whose waiters it had or are not kept. -/
theorem setAcceptor (steady : Steady T sc w) (a : Nat) {x : Acceptor} (opened : x.closed = false)
    (ready : ∀ f, Arrival.failure f ∈ x.ready → f.kind ≠ .acceptorClosed)
    (waiters : ∀ c ∈ x.waiters, c ∈ w.waiters ∨ c ∉ sc.kept) :
    Steady T sc { w with acceptors := w.acceptors.modify a fun _ => x } := by
  refine steady.rekeep rfl rfl (fun c mem => ?_) ?_
  · simp only [World.waiters] at waiters
    simp only [World.keepers, World.bindCells, World.waiters, World.poolWaiters, List.mem_append] at mem ⊢
    rcases mem with ((((reading | bound) | waiting) | idle) | reply)
    · tauto
    · tauto
    · simp only [Array.toList_modify, List.mem_flatMap] at waiting
      obtain ⟨acc, mem, inside⟩ := waiting
      rcases Owned.mem_modify mem with old | ⟨y, -, rfl⟩
      · exact Or.inl (Or.inl (Or.inl (Or.inr (List.mem_flatMap.2 ⟨acc, old, inside⟩))))
      · exact (waiters c inside).imp (fun had => Or.inl (Or.inl (Or.inr had))) id
    · tauto
    · tauto
  · refine { steady.unrefused with
      acceptors := fun i acc found => ?_ }
    simp only [Array.getElem?_modify] at found
    split at found
    · obtain ⟨-, -, rfl⟩ := Option.map_eq_some_iff.1 found
      exact ⟨opened, ready⟩
    · exact steady.unrefused.acceptors i acc found

/-- A new acceptor, open and empty. -/
theorem pushAcceptor (steady : Steady T sc w) :
    Steady T sc { w with acceptors := w.acceptors.push {} } := by
  refine steady.rekeep rfl rfl (fun c mem => Or.inl ?_) ?_
  · simpa [World.keepers, World.bindCells, World.waiters, World.poolWaiters] using mem
  · refine { steady.unrefused with
      acceptors := fun i acc found => ?_ }
    simp only [Array.getElem?_push] at found
    split at found
    · cases found
      exact ⟨rfl, fun f mem => by simp at mem⟩
    · exact steady.unrefused.acceptors i acc found

/-- After a change of the server, a record holds the cells it held before
and the idle waiters of the changed server's pool. -/
theorem mem_keepers_mapServer {f : Server → Server} {c : CellId}
    (mem : c ∈ ({ w with server := w.server.map f } : World).keepers) :
    c ∈ w.keepers ∨ ∃ s ∈ w.server, c ∈ (f s).poolWaiters := by
  simp only [World.keepers, World.bindCells, World.waiters, World.poolWaiters, List.mem_append] at mem ⊢
  rcases mem with ((((reading | bound) | waiting) | idle) | reply)
  · tauto
  · tauto
  · tauto
  · cases found : w.server with
    | none => simp [found] at idle
    | some s =>
      simp only [found, Option.map_some, Option.getD_some] at idle
      exact Or.inr ⟨s, rfl, idle⟩
  · tauto

/-- Changing the server but its outline, with idle waiters it had or that
are not kept. -/
theorem mapServer (steady : Steady T sc w) {f : Server → Server} (outline : ∀ s, (f s).outline = s.outline)
    (waiters : ∀ s, ∀ c ∈ (f s).poolWaiters, c ∈ s.poolWaiters ∨ c ∉ sc.kept) :
    Steady T sc { w with server := w.server.map f } := by
  refine steady.rekeep rfl (by cases w.server <;> simp [outline]) (fun c mem => ?_)
    (steady.unrefused.of_same rfl rfl rfl)
  rcases mem_keepers_mapServer mem with held | ⟨s, found, idle⟩
  · exact Or.inl held
  · refine (waiters s c idle).imp (fun had => ?_) id
    simp only [World.keepers, World.poolWaiters, Option.mem_def.1 found, Option.map_some, Option.getD_some,
      List.mem_append]
    exact Or.inl (Or.inr had)

theorem mode_of_found {d : Dispatcher} (found : w.server.map (·.dispatcher) = some d) (steady : Steady T sc w) :
    sc.outline.map Prod.snd = some d.mode := by
  obtain ⟨s, server, rfl⟩ := Option.map_eq_some_iff.1 found
  rw [← steady.outline, server]
  rfl

/-- Setting the handler a sequential dispatch waits for. -/
theorem setSequential (steady : Steady T sc w) (c : CellId)
    (sequential : sc.outline.map Prod.snd = some .sequential) :
    Steady T sc { w with server := w.server.map fun srv => { srv with dispatcher := .sequential c } } := by
  refine steady.rekeep rfl ?_ (fun x mem => ?_) (steady.unrefused.of_same rfl rfl rfl)
  · have outline := steady.outline
    cases found : w.server with
    | none => rfl
    | some s =>
      rw [found] at outline
      rw [← outline] at sequential
      simp only [Option.map_some, Option.some.injEq, Server.outline] at sequential ⊢
      rw [sequential]
      rfl
  · exact (mem_keepers_mapServer mem).imp id fun ⟨_, _, idle⟩ => by cases idle

/-- Replacing the pool of a server that dispatches concurrently, with idle
waiters that are not kept. -/
theorem setPool (steady : Steady T sc w) {p : WorkerPool Nat CellId}
    (concurrent : sc.outline.map Prod.snd = some .concurrent) (waiters : ∀ c ∈ p.idleWaiters, c ∉ sc.kept) :
    Steady T sc { w with server := w.server.map fun srv => { srv with dispatcher := .concurrent p } } := by
  refine steady.rekeep rfl ?_ (fun c mem => ?_) (steady.unrefused.of_same rfl rfl rfl)
  · have outline := steady.outline
    cases found : w.server with
    | none => rfl
    | some s =>
      rw [found] at outline
      rw [← outline] at concurrent
      simp only [Option.map_some, Option.some.injEq, Server.outline] at concurrent ⊢
      rw [concurrent]
      rfl
  · exact (mem_keepers_mapServer mem).imp id fun ⟨_, _, idle⟩ => waiters c idle

theorem reader_not_kept {r : Nat} {rd : Reader} (found : w.readers[r]? = some rd) (steady : Steady T sc w) :
    rd.cell ∉ sc.kept :=
  steady.not_kept_of_keeper (by
    simp only [World.keepers, List.mem_append, List.mem_map]
    exact Or.inl (Or.inl (Or.inl (Or.inl ⟨rd, Array.mem_toList_iff.2 (Array.mem_of_getElem? found), rfl⟩))))

theorem reply_not_kept {i : Nat} {k : Client} (found : w.clients[i]? = some k) (steady : Steady T sc w) :
    k.reply ∉ sc.kept :=
  steady.not_kept_of_keeper (by
    simp only [World.keepers, List.mem_append, List.mem_map]
    exact Or.inr ⟨k, Array.mem_toList_iff.2 (Array.mem_of_getElem? found), rfl⟩)

theorem bindCell_not_kept {i : Nat} {l : Listener} (found : w.listeners[i]? = some l) (steady : Steady T sc w) :
    l.bindCell ∉ sc.kept :=
  steady.not_kept_of_keeper (World.bindCells_subset_keepers w (by
    simp only [World.bindCells, List.mem_map]
    exact ⟨l, Array.mem_toList_iff.2 (Array.mem_of_getElem? found), rfl⟩))

theorem waiter_not_kept (steady : Steady T sc w) (a : Nat) {c : CellId}
    (mem : c ∈ (w.acceptors[a]?.getD {}).waiters) : c ∉ sc.kept := by
  cases found : w.acceptors[a]? with
  | none => rw [found] at mem; cases mem
  | some acc =>
    rw [found] at mem
    refine steady.not_kept_of_keeper ?_
    simp only [World.keepers, World.waiters, List.mem_append, List.mem_flatMap]
    exact Or.inl (Or.inl (Or.inr ⟨acc, Array.mem_toList_iff.2 (Array.mem_of_getElem? found), mem⟩))

theorem poolWaiter_not_kept {s : Server} (found : w.server = some s) (steady : Steady T sc w) {c : CellId}
    (mem : c ∈ s.poolWaiters) : c ∉ sc.kept :=
  steady.not_kept_of_keeper (by
    simp only [World.keepers, World.poolWaiters, found, Option.map_some, Option.getD_some, List.mem_append]
    exact Or.inl (Or.inr mem))

theorem idle_not_kept {p : WorkerPool Nat CellId} (found : w.server.map (·.dispatcher) = some (.concurrent p))
    (steady : Steady T sc w) : ∀ c ∈ p.idleWaiters, c ∉ sc.kept := by
  obtain ⟨s, server, same⟩ := Option.map_eq_some_iff.1 found
  intro c mem
  exact steady.poolWaiter_not_kept server (by simp [Server.poolWaiters, same, mem])

end Steady

end Machine
end HttpStub
