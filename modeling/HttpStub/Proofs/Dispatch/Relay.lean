import HttpStub.Proofs.Dispatch.Stages
import HttpStub.Proofs.Custody.Script

/-!
# The accept loop of a server that dispatches one connection at a time

The accept loop hands each connection it accepts to the dispatcher and waits
for the dispatch.  Dispatching one connection at a time, the dispatch waits
for the connection's handler, so the loop moves along a chain of four
reactions: the loop waits for an accept (`loopAccepted`), the handler of the
connection runs until it is served (`handleServed`), the dispatch reports the
handler done (`dispatchDone`), and the loop goes on (`loopDispatched`).  A
`Link` is what each of them owes, and a `Relay` says how far the chain has
got: which links are owed, which cells wait for which link, and what the
server's phase is meanwhile.

`Relays r w` is the invariant: the world owes exactly the links of `r`, its
server is in the phase of `r`, and the cells that hold the chain together
wait as `r` says.  Every move that is not one of the chain's own keeps it by
`Steady`, with the chain's cells kept waiting; each of the chain's moves
takes it one stage on.
-/

namespace HttpStub
namespace Async
namespace Loop

variable {κ υ ε β γ : Type}

theorem mem_owed_of_pending {T : κ → List β} {l : Loop κ υ ε} {c : CellId} {ks : List κ} {k : κ} {x : β}
    (pending : l.cells[c]? = some (.pending ks)) (waiting : k ∈ ks) (mem : x ∈ T k) : x ∈ l.owed T := by
  simp only [owed, List.mem_append, List.mem_flatMap]
  exact Or.inl ⟨.pending ks, Array.mem_toList_iff.2 (Array.mem_of_getElem? pending),
    by simpa [Cell.owed] using ⟨k, waiting, mem⟩⟩

theorem mem_owed_of_job {T : κ → List β} {l : Loop κ υ ε} {k : κ} {o : Outcome υ ε} {x : β}
    (queued : Job.resume k o ∈ l.jobs) (mem : x ∈ T k) : x ∈ l.owed T := by
  simp only [owed, List.mem_append, List.mem_flatMap]
  exact Or.inr ⟨.resume k o, queued, mem⟩

/-- What one weighing owes carries over to another that weighs every reaction
owing `x` with `y`. -/
theorem mem_owed_of_imp {T : κ → List β} {T' : κ → List γ} {l : Loop κ υ ε} {x : β} {y : γ}
    (imp : ∀ k, x ∈ T k → y ∈ T' k) (mem : x ∈ l.owed T) : y ∈ l.owed T' := by
  simp only [owed, List.mem_append, List.mem_flatMap] at mem ⊢
  rcases mem with ⟨cell, inCells, inCell⟩ | ⟨j, inJobs, inJob⟩
  · refine Or.inl ⟨cell, inCells, ?_⟩
    cases cell with
    | pending ks =>
      simp only [Cell.owed, List.mem_flatMap] at inCell ⊢
      obtain ⟨k, waiting, here⟩ := inCell
      exact ⟨k, waiting, imp k here⟩
    | settled o => simp [Cell.owed] at inCell
  · refine Or.inr ⟨j, inJobs, ?_⟩
    cases j with
    | resume k o => exact imp k inJob
    | task k => simp [Job.owed] at inJob

theorem owed_flatMap (T : κ → List β) (g : β → List γ) (l : Loop κ υ ε) :
    l.owed (fun k => (T k).flatMap g) = (l.owed T).flatMap g := by
  simp only [owed, List.flatMap_append, List.flatMap_assoc]
  congr 2 <;> funext x <;> cases x <;> simp [Cell.owed, Job.owed, List.flatMap_assoc]

end Loop
end Async

namespace Machine

open Std.Do Async

/-- What the reactions of the accept loop's chain owe. -/
inductive Link where
  /-- The loop waits for an accept. -/
  | accepting
  /-- The loop waits for a dispatch. -/
  | dispatched
  /-- A dispatch waits to report that its handler is done. -/
  | finishing (d : CellId)
  /-- The handler of a connection holds its cell. -/
  | handling (s : Nat) (h : CellId)
  deriving DecidableEq

/-- The link a reaction owes. -/
def Reaction.link : Reaction → List Link
  | .loopAccepted _ _ => [.accepting]
  | .loopDispatched _ _ => [.dispatched]
  | .dispatchDone d => [.finishing d]
  | .handleServed s h => [.handling s h]
  | _ => []

theorem Reaction.link_eq_nil {r : Reaction} (calm : r.relays = false) : r.link = [] := by
  cases r <;> first | rfl | cases calm

theorem Reaction.link_ne_nil {r : Reaction} (looping : r.loops = true) : r.link ≠ [] := by
  cases r <;> simp [Reaction.link, Reaction.loops] at looping ⊢

/-- The connection a link handles. -/
def Link.handled : Link → List Nat
  | .handling s _ => [s]
  | _ => []

theorem Reaction.handled_eq (r : Reaction) : r.handled = r.link.flatMap Link.handled := by
  cases r <;> rfl

/-- The cell a link's reaction settles, where the chain waits on it. -/
def Link.holds : Link → List CellId
  | .finishing d => [d]
  | .handling _ h => [h]
  | _ => []

theorem Reaction.holds_settles (k : Reaction) {x : Link} (mem : x ∈ k.link) : ∀ c ∈ x.holds, c ∈ k.settles := by
  cases k <;> simp only [Reaction.link, List.mem_cons, List.not_mem_nil, or_false] at mem <;> subst mem <;>
    simp [Link.holds]

/-- How far the accept loop has got. -/
inductive Relay where
  /-- No start has bound yet. -/
  | idle
  /-- The loop waits for an accept. -/
  | accepting
  /-- The loop has ended without a stop. -/
  | ended
  /-- The handler of `s` holds `h`; the dispatch `d` waits on `h`, the loop on `d`. -/
  | handling (s : Nat) (d h : CellId)
  /-- The handler is done, and the dispatch `d` is queued to report it. -/
  | finishing (d : CellId)
  /-- The dispatch is done, and the loop is queued to go on. -/
  | dispatched

namespace Relay

/-- The links owed at each stage. -/
def owed : Relay → Multiset Link
  | idle | ended => 0
  | accepting => {.accepting}
  | handling s d h => {.dispatched, .finishing d, .handling s h}
  | finishing d => {.dispatched, .finishing d}
  | dispatched => {.dispatched}

/-- The server's phase at each stage. -/
def phase : Relay → Phase
  | idle => .idle
  | accepting | ended => .accepting
  | handling .. | finishing _ | dispatched => .dispatching

/-- The cells the chain waits on. -/
def kept : Relay → List CellId
  | handling _ d h => [d, h]
  | finishing d => [d]
  | _ => []

/-- The loop waits on the dispatch `d`. -/
def LoopWaits (d : CellId) (w : World) : Prop :=
  ∃ ks, w.loop.cells[d]? = some (.pending ks) ∧ ∃ a own, Reaction.loopDispatched a own ∈ ks

/-- What holds the chain together at each stage: the cells it waits on, and
the reactions queued with how the cell they waited on settled. -/
def Waits : Relay → World → Prop
  | handling _ d h, w => d ≠ h ∧ LoopWaits d w ∧
      ∃ ks, w.loop.cells[h]? = some (.pending ks) ∧ Reaction.dispatchDone d ∈ ks
  | finishing d, w => LoopWaits d w ∧ ∃ v, Job.resume (.dispatchDone d) (.fulfilled v) ∈ w.loop.jobs
  | dispatched, w => ∃ a own v, Job.resume (.loopDispatched a own) (.fulfilled v) ∈ w.loop.jobs
  | idle, _ | accepting, _ | ended, _ => True

theorem kept_held {r : Relay} {c : CellId} (mem : c ∈ r.kept) : ∃ x ∈ r.owed, c ∈ x.holds := by
  cases r <;> simp_all [kept, owed, Link.holds]

/-! ### Each link is owed once -/

theorem owed_nodup (r : Relay) : r.owed.Nodup := by
  cases r <;> simp [owed]

variable {r : Relay} {T : Reaction → List Link} {l : Loop Reaction Value Failure} {j : Job Reaction Value Failure}
  {k : Reaction} {o : Outcome Value Failure} {rest : List (Job Reaction Value Failure)}

/-- The queue's first job owes its links, and the rest of the loop owes the
rest of the stage's. -/
theorem owed_pop (owed : (l.owed T : Multiset Link) = r.owed) (queued : l.jobs = j :: rest) :
    ({ l with jobs := rest }.owed T : Multiset Link) + Loop.Job.owed T j = r.owed := by
  rw [← owed, Multiset.coe_add]
  exact Multiset.coe_eq_coe.2 (Loop.owed_of_cons l T queued).symm

/-- A link the queue's first job owes is owed nowhere else. -/
theorem once (owed : (l.owed T : Multiset Link) = r.owed) (queued : l.jobs = .resume k o :: rest) {x : Link}
    (head : x ∈ T k) (again : x ∈ { l with jobs := rest }.owed T) : False := by
  have twice : 2 ≤ r.owed.count x := by
    rw [← owed_pop owed queued, Multiset.count_add]
    have first := Multiset.count_pos.2 (Multiset.mem_coe.2 again)
    have second : 0 < (Loop.Job.owed T (.resume k o) : Multiset Link).count x :=
      Multiset.count_pos.2 (Multiset.mem_coe.2 head)
    omega
  have single := Multiset.nodup_iff_count_le_one.1 r.owed_nodup x
  omega

theorem mem_of_head (owed : (l.owed T : Multiset Link) = r.owed) (queued : l.jobs = .resume k o :: rest)
    {x : Link} (head : x ∈ T k) : x ∈ r.owed := by
  rw [← owed_pop owed queued]
  exact Multiset.mem_add.2 (Or.inr (Multiset.mem_coe.2 head))

theorem owed_pop_quiet (owed : (l.owed T : Multiset Link) = r.owed) (queued : l.jobs = j :: rest)
    (quiet : Loop.Job.owed T j = []) : ({ l with jobs := rest }.owed T : Multiset Link) = r.owed := by
  have popped := owed_pop owed queued
  rwa [quiet, Multiset.coe_nil, add_zero] at popped

end Relay

/-- The accept loop of a server that dispatches one connection at a time
stands at `r`: the world owes the links of `r`, the server is in the phase
of `r`, the chain's cells wait as `r` says, and nothing refuses the loop. -/
structure Relays (r : Relay) (w : World) : Prop where
  owed : (w.loop.owed Reaction.link : Multiset Link) = r.owed
  outline : w.server.map Server.outline = some (r.phase, .sequential)
  waits : r.Waits w
  unrefused : Unrefused w

variable {r : Relay} {w w' : World}

namespace Unrefused

/-- A world that refuses nothing is steady against itself, weighing nothing
and keeping no cell. -/
theorem steady (u : Unrefused w) : Steady Reaction.unweighed (Scene.of Reaction.unweighed w []) w :=
  Steady.of_scene (fun _ mem => by cases mem) (fun _ mem => by cases mem) u

/-- Attaching a reaction refuses nothing: what it may queue, it queues with
how its cell settled. -/
theorem onSettled (u : Unrefused w) (c : CellId) (k : Reaction) :
    Unrefused { w with loop := w.loop.onSettled c k } :=
  (u.steady.onSettled c rfl).unrefused

/-- Settling a cell with no refusal refuses nothing. -/
theorem settle (u : Unrefused w) (c : CellId) {o : Outcome Value Failure} (clear : Clear o) :
    Unrefused { w with loop := w.loop.settle c o } :=
  (u.steady.settle (fun mem => by cases mem) clear).unrefused

/-- A world with its first job taken off refuses nothing the world did not. -/
theorem pop {j : Job Reaction Value Failure} {rest : List (Job Reaction Value Failure)}
    (u : Unrefused w) (queued : w.loop.jobs = j :: rest) :
    Unrefused { w with loop := { w.loop with jobs := rest } } :=
  { u with jobs := fun k o mem => u.jobs k o (by rw [queued]; exact List.mem_cons_of_mem _ mem) }

end Unrefused

theorem outline_setPhase (server : Option Server) (q : Phase) :
    (server.map fun srv => { srv with phase := q }).map Server.outline =
      (server.map Server.outline).map fun o => (q, o.2) := by
  cases server <;> rfl

theorem awake_of_outline {p : Phase} {m : DispatchMode} (outline : w.server.map Server.outline = some (p, m))
    (running : p ≠ .stopped) : (w.server.map (·.phase == .stopped)).getD true = false := by
  obtain ⟨srv, found, same⟩ := Option.map_eq_some_iff.1 outline
  simp only [Server.outline, Prod.mk.injEq] at same
  simp [found, same.1, running]

namespace Relays

/-- The handlers in progress are those of the links owed. -/
theorem handlers (relays : Relays r w) :
    (w.handlers [] : Multiset Nat) = r.owed.bind fun x => (x.handled : Multiset Nat) := by
  have flat : w.loop.owed Reaction.handled = (w.loop.owed Reaction.link).flatMap Link.handled := by
    rw [← Loop.owed_flatMap]
    exact congrArg (w.loop.owed ·) (funext Reaction.handled_eq)
  rw [← relays.owed, Multiset.coe_bind, ← flat]
  simp [World.handlers]

/-- The reactions of the chain hold the cells it waits on. -/
theorem held (relays : Relays r w) {c : CellId} (mem : c ∈ r.kept) : c ∈ w.loop.owed Reaction.settles := by
  obtain ⟨x, owed, holds⟩ := Relay.kept_held mem
  rw [← relays.owed] at owed
  exact Loop.mem_owed_of_imp (fun k linked => k.holds_settles linked c holds) (Multiset.mem_coe.1 owed)

/-- So no record holds them, and no code running now. -/
theorem apart (relays : Relays r w) {hand : List CellId} (owned : Owned hand w) {c : CellId} (mem : c ∈ r.kept) :
    c ∉ w.keepers ∧ c ∉ hand := by
  have held : c ∈ w.loop.held Reaction.settles :=
    List.mem_append_left _ (List.mem_append_left _ (relays.held mem))
  have apart := List.disjoint_of_nodup_append (by simpa only [World.holders, List.append_assoc] using owned.nodup)
  exact ⟨fun kept => apart held (List.mem_append_left _ kept), fun mine => apart held (List.mem_append_right _ mine)⟩

/-- The cells the chain waits on are pending. -/
theorem pending (relays : Relays r w) : ∀ c ∈ r.kept, w.loop.Pending c := by
  have waits := relays.waits
  cases r <;> simp only [Relay.kept, List.mem_cons, List.not_mem_nil, or_false, false_imp_iff, forall_const]
  case handling s d h =>
    obtain ⟨-, ⟨ks, found, -⟩, ks', found', -⟩ := waits
    rintro c (rfl | rfl)
    exacts [⟨ks, found⟩, ⟨ks', found'⟩]
  case finishing d =>
    obtain ⟨⟨ks, found, -⟩, -⟩ := waits
    rintro c rfl
    exact ⟨ks, found⟩

/-- Whatever keeps a world steady against it, with the chain's cells kept,
keeps the chain where it stands. -/
theorem of_steady (relays : Relays r w) (steady : Steady Reaction.link (Scene.of Reaction.link w r.kept) w') :
    Relays r w' where
  owed := steady.owed.trans relays.owed
  outline := steady.outline.trans relays.outline
  waits := by
    have waits := relays.waits
    cases r
    case handling s d h =>
      obtain ⟨apart, ⟨ks, found, a, own, waiting⟩, ks', found', waiting'⟩ := waits
      obtain ⟨ks₁, found₁, waiting₁⟩ := steady.still_waits (by simp [Relay.kept]) found waiting
      obtain ⟨ks₂, found₂, waiting₂⟩ := steady.still_waits (by simp [Relay.kept]) found' waiting'
      exact ⟨apart, ⟨ks₁, found₁, a, own, waiting₁⟩, ks₂, found₂, waiting₂⟩
    case finishing d =>
      obtain ⟨⟨ks, found, a, own, waiting⟩, v, queued⟩ := waits
      obtain ⟨ks₁, found₁, waiting₁⟩ := steady.still_waits (by simp [Relay.kept]) found waiting
      exact ⟨⟨ks₁, found₁, a, own, waiting₁⟩, v, steady.still_queued queued⟩
    case dispatched =>
      obtain ⟨a, own, v, queued⟩ := waits
      exact ⟨a, own, v, steady.still_queued queued⟩
    all_goals trivial
  unrefused := steady.unrefused

/-- Taking a job that owes no link off the queue keeps the chain where it
stands. -/
theorem pop {j : Job Reaction Value Failure} {rest : List (Job Reaction Value Failure)}
    (relays : Relays r w) (queued : w.loop.jobs = j :: rest) (quiet : Loop.Job.owed Reaction.link j = []) :
    Relays r { w with loop := { w.loop with jobs := rest } } where
  owed := Relay.owed_pop_quiet relays.owed queued quiet
  outline := relays.outline
  waits := by
    have kept : ∀ k o, Job.resume k o ∈ w.loop.jobs → k.link ≠ [] → Job.resume k o ∈ rest := by
      intro k o mem linked
      rw [queued] at mem
      rcases List.mem_cons.1 mem with rfl | later
      · exact absurd quiet linked
      · exact later
    have waits := relays.waits
    cases r
    case finishing d =>
      obtain ⟨loopWaits, v, queued'⟩ := waits
      exact ⟨loopWaits, v, kept _ _ queued' (List.cons_ne_nil _ _)⟩
    case dispatched =>
      obtain ⟨a, own, v, queued'⟩ := waits
      exact ⟨a, own, v, kept _ _ queued' (List.cons_ne_nil _ _)⟩
    all_goals exact waits
  unrefused := relays.unrefused.pop queued

/-- A world whose chain stands somewhere is steady against itself, with the
chain's cells kept. -/
theorem steady (relays : Relays r w) (apart : ∀ c ∈ r.kept, c ∉ w.keepers) :
    Steady Reaction.link (Scene.of Reaction.link w r.kept) w :=
  Steady.of_scene relays.pending apart relays.unrefused

/-- A job that owes no link and is no start that bound keeps the chain where
it stands. -/
theorem job_calm {j : Job Reaction Value Failure} {rest : List (Job Reaction Value Failure)}
    (relays : Relays r w) (owned : Owned [] w) (queued : w.loop.jobs = j :: rest)
    (quiet : Loop.Job.owed Reaction.link j = [])
    (unbound : ∀ a own p, j ≠ .resume (.startBound a own) (.fulfilled (.port p))) :
    Relays r ((runJob j).run { w with loop := { w.loop with jobs := rest } }).2 := by
  have popped := relays.pop queued quiet
  have taken := owned.pop queued
  have sequential : (Scene.of Reaction.link { w with loop := { w.loop with jobs := rest } } r.kept).outline =
      some (r.phase, .sequential) := popped.outline
  refine popped.of_steady (Steady.after (runJob_steady (fun _ calm => Reaction.link_eq_nil calm) ?_ j quiet ?_ ?_ ?_
    unbound) (popped.steady fun _ mem => (popped.apart taken mem).1))
  · intro concurrent
    rw [sequential] at concurrent
    cases concurrent
  · intro k o same
    subst same
    cases looping : k.loops
    · rfl
    · exact absurd quiet (Reaction.link_ne_nil looping)
  · intro c mine kept
    exact (popped.apart taken kept).2 (List.mem_append_left _ mine)
  · intro k o same
    exact relays.unrefused.jobs k o (by rw [queued, same]; exact List.mem_cons_self)

end Relays

/-! ## The moves of the chain -/

/-- A round of the accept loop on a server that is not stopped sets the phase
to accepting and attaches the loop to the accept: under any weighing, the
world owes at most what the loop's resumption owes more, and it refuses
nothing. -/
theorem loopRound_round {β : Type} (T : Reaction → List β) (a : Nat) (own : CellId) {p : Phase}
    {m : DispatchMode} (running : p ≠ .stopped) (outline : w.server.map Server.outline = some (p, m))
    (unrefused : Unrefused w) :
    ((loopRound a own).run w).2.server.map Server.outline = some (.accepting, m) ∧
      (∃ E ≤ (T (.loopAccepted a own) : Multiset β),
        (((loopRound a own).run w).2.loop.owed T : Multiset β) = w.loop.owed T + E) ∧
      Unrefused ((loopRound a own).run w).2 := by
  have awake := awake_of_outline outline running
  have accepting : Steady T (Scene.of T { w with server := w.server.map fun srv => { srv with phase := .accepting } } [])
      { w with server := w.server.map fun srv => { srv with phase := .accepting } } :=
    Steady.of_scene (fun _ mem => by cases mem) (fun _ mem => by cases mem) (unrefused.of_same rfl rfl rfl)
  have accepted := Steady.after (accept_steady a) accepting
  have run : ((loopRound a own).run w).2 =
      let acc := (accept a).run { w with server := w.server.map fun srv => { srv with phase := .accepting } }
      { acc.2 with loop := acc.2.loop.onSettled acc.1 (.loopAccepted a own) } := by
    simp only [loopRound, bind_run, stopped_run, awake, setPhase]
    rfl
  rw [run]
  generalize (accept a).run _ = acc at accepted
  obtain ⟨c, w₂⟩ := acc
  obtain ⟨E, le, grown⟩ := coe_owed_onSettled (T := T) w₂.loop c (.loopAccepted a own)
  refine ⟨accepted.outline.trans ?_, ⟨E, le, grown.trans (by rw [accepted.owed]; rfl)⟩,
    accepted.unrefused.onSettled c _⟩
  simp only [Scene.of]
  rw [outline_setPhase, outline]
  rfl

/-- A round of the accept loop, on a server that is not stopped and owes no
link: the phase becomes accepting and the loop waits for the next accept,
or, should the accept leave it no cell to wait on, ends. -/
theorem loopRound_relays (a : Nat) (own : CellId) {p : Phase} (running : p ≠ .stopped)
    (outline : w.server.map Server.outline = some (p, .sequential))
    (owed : (w.loop.owed Reaction.link : Multiset Link) = 0) (unrefused : Unrefused w) :
    Relays .accepting ((loopRound a own).run w).2 ∨ Relays .ended ((loopRound a own).run w).2 := by
  obtain ⟨outline', ⟨E, le, grown⟩, unrefused'⟩ := loopRound_round Reaction.link a own running outline unrefused
  rw [owed, zero_add] at grown
  rcases Multiset.le_singleton.1 le with rfl | rfl
  · exact Or.inr ⟨grown, outline', trivial, unrefused'⟩
  · exact Or.inl ⟨grown, outline', trivial, unrefused'⟩

/-! ## A connection handed over

A handler and a sequential dispatch make fresh cells and attach the chain's
reactions to them.  The fresh cells are kept waiting while the handler's
first stages run; that no record holds them follows from the records
holding only cells made before. -/

theorem pending_fresh (w : World) : ({ w with loop := w.loop.fresh.2 } : World).loop.cells[w.loop.cells.size]? =
    some (.pending []) := by
  simp

/-- A handler started from a steady world whose records hold only cells made
before makes the next cell, `h`, which waits; the handler's last stage owes
its link; and the world is otherwise steady. -/
theorem handle_relays (s : Nat) {sc : Scene Link} (steady : Steady Reaction.link sc w)
    (bounded : ∀ c ∈ w.keepers, c < w.loop.cells.size) :
    ((handle s).run w).1 = w.loop.cells.size ∧
      (((handle s).run w).2.loop.owed Reaction.link : Multiset Link) =
        sc.owed + {.handling s w.loop.cells.size} ∧
      Steady Reaction.unweighed sc.unweigh ((handle s).run w).2 ∧
      ((handle s).run w).2.loop.Pending w.loop.cells.size := by
  have size₁ : w.loop.fresh.2.cells.size = w.loop.cells.size + 1 := by simp
  have steady₂ : Steady Reaction.link sc { w with loop := w.loop.fresh.2.fresh.2 } := steady.fresh.fresh
  have waits_h : w.loop.fresh.2.fresh.2.cells[w.loop.cells.size]? = some (.pending []) := by
    rw [Loop.getElem?_fresh, if_neg (by rw [size₁]; exact Nat.ne_of_lt (Nat.lt_succ_self _)),
      Loop.getElem?_fresh, if_pos rfl]
  have waits_c : w.loop.fresh.2.fresh.2.cells[w.loop.fresh.2.cells.size]? = some (.pending []) := by
    rw [Loop.getElem?_fresh, if_pos rfl]
  have kept₂ : Steady Reaction.link (Scene.of Reaction.link { w with loop := w.loop.fresh.2.fresh.2 }
      (sc.kept ++ [w.loop.cells.size, w.loop.fresh.2.cells.size])) { w with loop := w.loop.fresh.2.fresh.2 } := by
    refine steady₂.keep_more bounded (fun x mem => ?_) (fun x mem => ?_)
    · rcases List.mem_pair.1 mem with rfl | rfl
      · exact ⟨[], waits_h⟩
      · exact ⟨[], waits_c⟩
    · rcases List.mem_pair.1 mem with rfl | rfl
      · exact le_rfl
      · rw [size₁]
        exact Nat.le_succ _
  have run : (handle s).run w =
      (w.loop.cells.size,
        let w₂ : World := { w with loop := w.loop.fresh.2.fresh.2 }
        let cfg := (w₂.server.map (·.config)).getD ServerConfig.default
        let read := (readRequest s cfg.readBufferSize cfg.readTimeoutMs).run w₂
        let served := read.2.loop.onSettled read.1 (.serveRead s w.loop.fresh.2.cells.size)
        { read.2 with loop := served.onSettled w.loop.fresh.2.cells.size (.handleServed s w.loop.cells.size) }) := by
    simp only [handle, serve, bind_run, fresh_run, get_run, onSettled_run, pure_run]
  rw [run]
  simp only
  have read := Steady.after (readRequest_steady (fun _ calm => Reaction.link_eq_nil calm) s
    ((w.server.map (·.config)).getD ServerConfig.default).readBufferSize
    ((w.server.map (·.config)).getD ServerConfig.default).readTimeoutMs) kept₂
  generalize (readRequest s _ _).run _ = result at read ⊢
  obtain ⟨r, w₃⟩ := result
  have served := read.onSettled r (k := .serveRead s w.loop.fresh.2.cells.size) rfl
  have back : Steady Reaction.link sc { w₃ with loop := w₃.loop.onSettled r (.serveRead s w.loop.fresh.2.cells.size) } :=
    steady₂.trans served (List.subset_append_left _ _)
  obtain ⟨ks, waits, -⟩ := served.kept w.loop.fresh.2.cells.size (by simp)
  obtain ⟨ks', waits', -⟩ := served.kept w.loop.cells.size (by simp)
  refine ⟨trivial, ?_, back.unweigh.onSettled _ rfl, ?_⟩
  · rw [Multiset.coe_eq_coe.2 (Loop.owed_onSettled _ Reaction.link (Loop.Pending.lt ⟨ks, waits⟩) _), ← Multiset.coe_add,
      back.owed]
    rfl
  · refine ⟨ks', ?_⟩
    rw [Loop.getElem?_onSettled _ waits, if_neg (by rw [size₁]; exact Nat.succ_ne_self _)]
    exact waits' 

/-- A sequential dispatch from a steady world whose records hold only cells
made before makes its cell `d` and starts the handler on the next cell `h`:
the handler's last stage and the dispatch's report owe their links, `d`
waits, and `h` waits with the report. -/
theorem dispatch_relays (s : Nat) {sc : Scene Link} (steady : Steady Reaction.link sc w)
    (sequential : sc.outline.map Prod.snd = some .sequential)
    (bounded : ∀ c ∈ w.keepers, c < w.loop.cells.size) :
    ((dispatch s).run w).1 = w.loop.cells.size ∧
      (((dispatch s).run w).2.loop.owed Reaction.link : Multiset Link) =
        sc.owed + {.handling s (w.loop.cells.size + 1)} + {.finishing w.loop.cells.size} ∧
      ((dispatch s).run w).2.server.map Server.outline = sc.outline ∧
      Unrefused ((dispatch s).run w).2 ∧
      ((dispatch s).run w).2.loop.Pending w.loop.cells.size ∧
      ∃ ks, ((dispatch s).run w).2.loop.cells[w.loop.cells.size + 1]? = some (.pending ks) ∧
        .dispatchDone w.loop.cells.size ∈ ks := by
  obtain ⟨srv, found, mode⟩ : ∃ srv, w.server = some srv ∧ srv.dispatcher.mode = .sequential := by
    have outline := steady.outline
    cases server : w.server with
    | none =>
      rw [server] at outline
      rw [← outline] at sequential
      cases sequential
    | some srv =>
      rw [server] at outline
      rw [← outline] at sequential
      exact ⟨srv, rfl, Option.some.inj sequential⟩
  obtain ⟨current, held⟩ : ∃ current, srv.dispatcher = .sequential current := by
    cases dispatcher : srv.dispatcher with
    | sequential current => exact ⟨current, rfl⟩
    | concurrent p => rw [dispatcher] at mode; cases mode
  have size₁ : w.loop.fresh.2.cells.size = w.loop.cells.size + 1 := by simp
  have kept₁ : Steady Reaction.link (Scene.of Reaction.link { w with loop := w.loop.fresh.2 }
      (sc.kept ++ [w.loop.cells.size])) { w with loop := w.loop.fresh.2 } := by
    refine steady.fresh.keep_more bounded (fun x mem => ?_) (fun x mem => ?_)
    · rw [List.mem_singleton.1 mem]
      exact ⟨[], pending_fresh w⟩
    · rw [List.mem_singleton.1 mem]
  have bounded₁ : ∀ c ∈ ({ w with loop := w.loop.fresh.2 } : World).keepers, c < w.loop.fresh.2.cells.size :=
    fun c held => by
      rw [size₁]
      exact Nat.lt_succ_of_lt (bounded c held)
  obtain ⟨handled, owed, frame, waits⟩ := handle_relays s kept₁ bounded₁
  have run : (dispatch s).run w =
      (w.loop.cells.size,
        let started := (handle s).run { w with loop := w.loop.fresh.2 }
        let w₃ : World :=
          { started.2 with server := started.2.server.map fun srv => { srv with dispatcher := .sequential started.1 } }
        { w₃ with loop := w₃.loop.onSettled started.1 (.dispatchDone w.loop.cells.size) }) := by
    simp only [dispatch, bind_run, dispatcher?, get_run, pure_run, found, Option.map_some, held, fresh_run,
      modifyServer_run, onSettled_run]
  rw [run]
  generalize (handle s).run { w with loop := w.loop.fresh.2 } = started at handled owed frame waits
  obtain ⟨h, w₂⟩ := started
  simp only [size₁] at handled owed frame waits
  subst handled
  have pointed := frame.setSequential (w.loop.cells.size + 1)
    (by simpa [Scene.unweigh, Scene.of, steady.outline] using sequential)
  refine ⟨rfl, ?_, pointed.outline.trans steady.fresh.outline, pointed.unrefused.onSettled _ _, ?_, ?_⟩
  · have grown := Multiset.coe_eq_coe.2
      (Loop.owed_onSettled w₂.loop Reaction.link (Loop.Pending.lt waits) (Reaction.dispatchDone w.loop.cells.size))
    have before := steady.fresh.owed
    simp only at before
    rw [grown, ← Multiset.coe_add, owed]
    simp only [Scene.of, Reaction.link, Multiset.coe_singleton, before]
  · obtain ⟨ks, found, -⟩ := pointed.kept w.loop.cells.size
      (List.mem_append_right _ (List.mem_singleton_self _))
    exact Loop.Pending.onSettled ⟨ks, found⟩ _ _
  · obtain ⟨ks, found⟩ := waits
    refine ⟨ks ++ [.dispatchDone w.loop.cells.size], ?_, List.mem_append_right _ (List.mem_singleton_self _)⟩
    exact (Loop.getElem?_onSettled _ found _).trans (if_pos rfl)

theorem keepers_setPhase (q : Phase) (w : World) :
    ((setPhase q).run w).2.keepers = w.keepers ∧ ((setPhase q).run w).2.loop = w.loop := by
  refine ⟨?_, rfl⟩
  cases found : w.server <;> simp [setPhase, modifyServer_run, found, World.keepers, World.bindCells,
    World.waiters, World.poolWaiters, Server.poolWaiters]

theorem keepers_track (s : Nat) (w : World) :
    ((track s).run w).2.keepers = w.keepers ∧ ((track s).run w).2.loop = w.loop := by
  unfold track
  simp only [bind_run, endpoint_run]
  by_cases closed : (w.sockets[s]?.getD {}).closed = true
  · simp only [closed, if_true]
    exact ⟨rfl, rfl⟩
  · simp only [closed, Bool.false_eq_true, if_false, bind_run, modifyServer_run, listenClose, modifyEndpoint_run]
    refine ⟨?_, trivial⟩
    cases found : w.server <;>
      simp [found, World.keepers, World.bindCells, World.waiters, World.poolWaiters, Server.poolWaiters]

/-- A connection accepted while the loop stands between rounds is handed to
the dispatcher: the loop waits on the dispatch `d`, made next, and the
dispatch on the handler `h`, made after it. -/
theorem loopAccepted_socket_relays (a : Nat) (own : CellId) (s : Nat) (ended : Relays .ended w)
    (bounded : ∀ c ∈ w.keepers, c < w.loop.cells.size) :
    Relays (.handling s w.loop.cells.size (w.loop.cells.size + 1))
      ((loopAccepted a own (.fulfilled (.socket s))).run w).2 := by
  have awake := awake_of_outline ended.outline (p := .accepting) (by decide)
  have run : ((loopAccepted a own (.fulfilled (.socket s))).run w).2 =
      let d := (dispatch s).run ((track s).run ((setPhase .dispatching).run w).2).2
      { d.2 with loop := d.2.loop.onSettled d.1 (.loopDispatched a own) } := by
    simp only [loopAccepted, bind_run, stopped_run, awake]
    rfl
  have outline₁ : ((setPhase .dispatching).run w).2.server.map Server.outline = some (.dispatching, .sequential) := by
    simp only [setPhase, modifyServer_run]
    rw [outline_setPhase, ended.outline]
    rfl
  have taking : Steady Reaction.link (Scene.of Reaction.link ((setPhase .dispatching).run w).2 [])
      ((setPhase .dispatching).run w).2 :=
    Steady.of_scene (fun _ mem => by cases mem) (fun _ mem => by cases mem) (ended.unrefused.of_same rfl rfl rfl)
  have tracked := Steady.after (track_steady s) taking
  obtain ⟨keepers₁, loop₁⟩ := keepers_setPhase .dispatching w
  obtain ⟨keepers₂, loop₂⟩ := keepers_track s ((setPhase .dispatching).run w).2
  have bounded₂ : ∀ c ∈ ((track s).run ((setPhase .dispatching).run w).2).2.keepers,
      c < ((track s).run ((setPhase .dispatching).run w).2).2.loop.cells.size := by
    rw [keepers₂, keepers₁, loop₂, loop₁]
    exact bounded
  obtain ⟨made, owed, outline, unrefused, pending, ks, waits, mem⟩ :=
    dispatch_relays s tracked (by simp [Scene.of, outline₁]) bounded₂
  rw [run]
  simp only
  generalize (dispatch s).run _ = dispatched at made owed outline unrefused pending waits
  obtain ⟨d, w₃⟩ := dispatched
  rw [loop₂, loop₁] at made owed pending waits
  simp only at made owed outline unrefused pending waits
  subst made
  rw [loop₂, loop₁] at mem
  obtain ⟨ks', found⟩ := pending
  have before : (Scene.of Reaction.link ((setPhase .dispatching).run w).2 []).owed = 0 := by
    simp only [Scene.of, loop₁]
    exact ended.owed
  refine ⟨?_, ?_, ⟨Nat.ne_of_lt (Nat.lt_succ_self _), ?_, ?_⟩, unrefused.onSettled _ _⟩
  · rw [Multiset.coe_eq_coe.2 (Loop.owed_onSettled w₃.loop Reaction.link (Loop.Pending.lt ⟨ks', found⟩) _),
      ← Multiset.coe_add, owed, before]
    simp only [Relay.owed, Reaction.link, Multiset.coe_singleton, Multiset.insert_eq_cons, zero_add,
      ← Multiset.singleton_add]
    abel
  · exact outline.trans outline₁
  · refine ⟨ks' ++ [.loopDispatched a own], ?_, a, own, List.mem_append_right _ (List.mem_singleton_self _)⟩
    exact (Loop.getElem?_onSettled _ found _).trans (if_pos rfl)
  · refine ⟨ks, ?_, mem⟩
    exact (Loop.getElem?_onSettled _ found _).trans ((if_neg (Nat.ne_of_lt (Nat.lt_succ_self _))).trans waits)

/-! ## The rest of the chain -/

namespace Relays

/-- What is noted changes nothing the chain stands on. -/
theorem notices (relays : Relays r w) (ns : Array Notice) : Relays r { w with notices := ns } :=
  ⟨relays.owed, relays.outline, by cases r <;> exact relays.waits, relays.unrefused.of_same rfl rfl rfl⟩

/-- A function that keeps every world steady keeps the chain where it
stands, when no record holds the chain's cells. -/
theorem run {α : Type} {f : Sim α} (relays : Relays r w) (apart : ∀ c ∈ r.kept, c ∉ w.keepers)
    (spec : ⦃fun w' => ⌜Steady Reaction.link (Scene.of Reaction.link w r.kept) w'⌝⦄ f
      ⦃⇓ _ w' => ⌜Steady Reaction.link (Scene.of Reaction.link w r.kept) w'⌝⦄) : Relays r (f.run w).2 :=
  relays.of_steady (Steady.after spec (relays.steady apart))

end Relays

/-- The accept loop resumes between rounds: a failed accept starts another
round, a connection is handed over, and anything else ends the loop. -/
theorem loopAccepted_relays (a : Nat) (own : CellId) (o : Outcome Value Failure) (ended : Relays .ended w)
    (bounded : ∀ c ∈ w.keepers, c < w.loop.cells.size) (clear : Clear o) :
    ∃ r', Relays r' ((loopAccepted a own o).run w).2 := by
  rcases o with v | f
  · cases v
    case socket s => exact ⟨_, loopAccepted_socket_relays a own s ended bounded⟩
    all_goals exact ⟨_, ended.run (fun _ mem => by cases mem) (settle_steady own _ List.not_mem_nil trivial)⟩
  · have open_ : f.kind ≠ .acceptorClosed := clear
    simp only [loopAccepted, open_, beq_iff_eq, if_false, bind_run, log, note_run]
    refine (loopRound_relays a own (p := .accepting) (by decide) ?_ ?_ ?_).elim (⟨_, ·⟩) (⟨_, ·⟩)
    · exact ((ended.notices _).notices _).outline
    · exact ((ended.notices _).notices _).owed
    · exact ((ended.notices _).notices _).unrefused

/-- The handler's last stage does its reporting and closing without touching
the cells the world keeps, and settles its own cell last. -/
theorem handleServed_run (s : Nat) (own : CellId) (o : Outcome Value Failure) {sc : Scene Link}
    (steady : Steady Reaction.link sc w) :
    ∃ w', Steady Reaction.link sc w' ∧
      ((handleServed s own o).run w).2 = { w' with loop := w'.loop.settle own (.fulfilled .unit) } := by
  rcases o with v | f
  · exact ⟨_, Steady.after (close_steady s) steady, rfl⟩
  · by_cases transfer : f.isTransfer = true
    · simp only [handleServed, transfer, if_true, bind_run, settle_run]
      exact ⟨_, Steady.after (close_steady s) (Steady.after (note_steady _) (Steady.after (log_steady _ _) steady)), rfl⟩
    · simp only [handleServed, transfer, Bool.false_eq_true, if_false, bind_run, settle_run]
      exact ⟨_, Steady.after (close_steady s) (Steady.after (note_steady _) steady), rfl⟩

/-- The handler of `s` is served while the dispatch `d` waits on its cell
`h`: it settles `h`, which queues the dispatch's report. -/
theorem handleServed_relays (s : Nat) {d h : CellId} (o : Outcome Value Failure)
    (owed : (w.loop.owed Reaction.link : Multiset Link) = {.dispatched, .finishing d})
    (outline : w.server.map Server.outline = some (.dispatching, .sequential))
    (waits : Relay.Waits (.handling s d h) w) (unrefused : Unrefused w)
    (apart : ∀ c ∈ [d, h], c ∉ w.keepers) :
    Relays (.finishing d) ((handleServed s h o).run w).2 := by
  obtain ⟨distinct, ⟨ks, found, a, own', waiting⟩, ks', found', waiting'⟩ := waits
  have steady : Steady Reaction.link (Scene.of Reaction.link w [d, h]) w := by
    refine Steady.of_scene (fun c mem => ?_) apart unrefused
    rcases List.mem_cons.1 mem with rfl | mem
    · exact ⟨ks, found⟩
    · rw [List.mem_singleton.1 mem]
      exact ⟨ks', found'⟩
  obtain ⟨w', steady', run⟩ := handleServed_run s h o steady
  rw [run]
  obtain ⟨ks₁, found₁, waiting₁⟩ := steady'.still_waits (by simp) found waiting
  obtain ⟨ks₂, found₂, waiting₂⟩ := steady'.still_waits (by simp) found' waiting'
  refine ⟨?_, steady'.outline.trans outline, ⟨⟨ks₁, ?_, a, own', waiting₁⟩, .unit, ?_⟩, steady'.unrefused.settle h trivial⟩
  · simp only [coe_owed_settle]
    exact steady'.owed.trans owed
  · exact (Loop.getElem?_settle _ found₂ _).trans ((if_neg (Ne.symm distinct)).trans found₁)
  · rw [Loop.settle_of_pending _ found₂]
    exact List.mem_append_right _ (List.mem_map.2 ⟨_, waiting₂, rfl⟩)

/-- The dispatch `d` reports its handler done: the loop, waiting on `d`, is
queued to go on. -/
theorem dispatchDone_relays {d : CellId} (v : Value)
    (owed : (w.loop.owed Reaction.link : Multiset Link) = {.dispatched})
    (outline : w.server.map Server.outline = some (.dispatching, .sequential))
    (waits : Relay.LoopWaits d w) (unrefused : Unrefused w) :
    Relays .dispatched ((settle d (.fulfilled v)).run w).2 := by
  obtain ⟨ks, found, a, own, waiting⟩ := waits
  refine ⟨?_, outline, ⟨a, own, v, ?_⟩, unrefused.settle d trivial⟩
  · simp only [settle_run, coe_owed_settle]
    exact owed
  · simp only [settle_run, Loop.settle_of_pending _ found]
    exact List.mem_append_right _ (List.mem_map.2 ⟨_, waiting, rfl⟩)

/-- A start whose bind gave a port notes the port, starts the accept loop's
first round on a fresh cell, records the loop, and reports the port. -/
theorem startBound_port_run (a : Nat) (own : CellId) (p : Double) (w : World) :
    ∃ ns, ((startBound a own (.fulfilled (.port p))).run w).2 =
      ((settle own (.fulfilled (.port p))).run
        ((modifyServer fun srv => { srv with loop := some w.loop.cells.size }).run
          ((loopRound a w.loop.cells.size).run { w with loop := w.loop.fresh.2, notices := ns }).2).2).2 :=
  ⟨_, rfl⟩

/-- A start whose bind gave a port, while no start has bound: the accept
loop starts its first round. -/
theorem startBound_relays (a : Nat) (own : CellId) (p : Double) (idle : Relays .idle w) :
    ∃ r', Relays r' ((startBound a own (.fulfilled (.port p))).run w).2 := by
  obtain ⟨ns, run⟩ := startBound_port_run a own p w
  rw [run]
  have made : Relays .idle { w with loop := w.loop.fresh.2, notices := ns } :=
    (idle.notices ns).of_steady ((idle.notices ns).steady fun _ mem => by cases mem).fresh
  rcases loopRound_relays a w.loop.cells.size (by decide) made.outline made.owed made.unrefused with round | round
  all_goals
    have recorded := round.run (fun _ mem => by cases mem)
      (modifyServer_steady (fun srv => { srv with loop := some w.loop.cells.size }) (fun _ => rfl) fun _ _ mem => .inl mem)
    exact ⟨_, recorded.run (fun _ mem => by cases mem)
      (settle_steady own (.fulfilled (.port p)) List.not_mem_nil trivial)⟩

/-! ## Moves -/

section Moves

open Session.Server

end Moves

end Machine

namespace Session
namespace Server

open Async Machine

theorem Move.apply_job_of_idle {w : World} (idle : w.loop.jobs = []) : Move.apply .job w = w := by
  simp only [Move.apply, runNext, bind_run, get_run, Loop.next?, idle]
  rfl

end Server
end Session
end HttpStub
