import HttpStub.Proofs.Dispatch.Relay

/-!
# One connection at a time

A server that dispatches one connection at a time keeps its accept loop on
the chain `Relays` describes, from the world a script starts in and along
every run that calls no stop.  Each move keeps the chain standing: a move
that is not one of the chain's own by the frame of `Steady`, and a job of
the chain by taking it one stage on.  That a job of the chain comes only at
the stage that waits for it is counting: every stage owes each link once, so
a link the queue's first job owes is owed nowhere else, and the job is the
one the stage waits for.

From the chain's stage every claim about the loop is read off: the handlers
in progress are those of the links owed, at most one; a connection the
acceptor hands to the loop finds none in progress and its handler starts at
once; and when no job is queued the loop either waits on a handler, the
server dispatching, or waits for an accept, the server accepting.
-/

namespace HttpStub
namespace Machine

open Std.Do Async Session.Server

variable {r : Relay} {w : World}

namespace Relay

variable {m : DispatchMode} {S : Nat} {halted : Bool} {o : Outcome Value Failure}

theorem phase_eq (outline : w.server.map Server.outline = some (r.phase, m)) : w.phase = r.phase := by
  obtain ⟨srv, found, same⟩ := Option.map_eq_some_iff.1 outline
  simp only [Server.outline, Prod.mk.injEq] at same
  simp [World.phase, found, same.1]

end Relay

namespace Relays

variable {k : Reaction} {o : Outcome Value Failure} {rest : List (Job Reaction Value Failure)}

/-! ## The chain's own jobs -/

/-- The loop resumes after an accept only at the stage that waits for one,
and the world without the job stands between rounds. -/
theorem accepting_of_accepted {a : Nat} {own : CellId} (relays : Relays r w)
    (queued : w.loop.jobs = .resume (.loopAccepted a own) o :: rest) :
    r = .accepting ∧ Relays .ended { w with loop := { w.loop with jobs := rest } } := by
  have owes := Relay.owed_pop relays.owed queued
  have stage : r = .accepting := by
    have mem := Relay.mem_of_head relays.owed queued (x := .accepting) (by simp [Reaction.link])
    cases r <;> simp [Relay.owed] at mem ⊢
  subst stage
  exact ⟨rfl, by simpa [Loop.Job.owed, Reaction.link, Relay.owed] using owes, relays.outline, trivial, relays.unrefused.pop queued⟩

theorem loopAccepted_job {a : Nat} {own : CellId} (relays : Relays r w) (owned : Owned [] w)
    (queued : w.loop.jobs = .resume (.loopAccepted a own) o :: rest) :
    ∃ r', Relays r' ((loopAccepted a own o).run { w with loop := { w.loop with jobs := rest } }).2 := by
  obtain ⟨-, ended⟩ := relays.accepting_of_accepted queued
  have taken := owned.pop queued
  exact loopAccepted_relays a own o ended
    (fun c held => taken.bound c (List.mem_append_left _ (List.mem_append_right _ held)))
    (relays.unrefused.jobs _ _ (by rw [queued]; exact List.mem_cons_self))

/-- The loop resumes after a dispatch only once the dispatch is done, and
then with how it went. -/
theorem loopDispatched_job {a : Nat} {own : CellId} (relays : Relays r w)
    (queued : w.loop.jobs = .resume (.loopDispatched a own) o :: rest) :
    ∃ r', Relays r' ((loopDispatched a own o).run { w with loop := { w.loop with jobs := rest } }).2 := by
  have owes := Relay.owed_pop relays.owed queued
  have head : Link.dispatched ∈ (Reaction.loopDispatched a own).link := by simp [Reaction.link]
  have mem := Relay.mem_of_head relays.owed queued head
  have waits := relays.waits
  cases r
  case handling s d h =>
    obtain ⟨-, ⟨ks, found, a', own', waiting⟩, -⟩ := waits
    exact (Relay.once relays.owed queued head (Loop.mem_owed_of_pending found waiting (by simp [Reaction.link]))).elim
  case finishing d =>
    obtain ⟨⟨ks, found, a', own', waiting⟩, -⟩ := waits
    exact (Relay.once relays.owed queued head (Loop.mem_owed_of_pending found waiting (by simp [Reaction.link]))).elim
  case dispatched =>
    obtain ⟨a', own', v, queued'⟩ := waits
    rw [queued] at queued'
    rcases List.mem_cons.1 queued' with same | later
    · cases same
      have none : (({ w with loop := { w.loop with jobs := rest } } : World).loop.owed Reaction.link :
          Multiset Link) = 0 := by
        simpa [Loop.Job.owed, Reaction.link, Relay.owed] using owes
      exact (loopRound_relays a own (w := { w with loop := { w.loop with jobs := rest } }) (p := .dispatching)
        (by decide) relays.outline none (relays.unrefused.pop queued)).elim (⟨_, ·⟩) (⟨_, ·⟩)
    · exact (Relay.once relays.owed queued head (Loop.mem_owed_of_job later (by simp [Reaction.link]))).elim
  all_goals simp [Relay.owed] at mem

/-- A dispatch reports its handler done only once the handler is served, and
then the loop is queued to go on. -/
theorem dispatchDone_job {d : CellId} (relays : Relays r w)
    (queued : w.loop.jobs = .resume (.dispatchDone d) o :: rest) :
    ∃ r', Relays r' ((settle d o).run { w with loop := { w.loop with jobs := rest } }).2 := by
  have owes := Relay.owed_pop relays.owed queued
  have head : Link.finishing d ∈ (Reaction.dispatchDone d).link := by simp [Reaction.link]
  have mem := Relay.mem_of_head relays.owed queued head
  have waits := relays.waits
  cases r
  case handling s d' h =>
    obtain ⟨-, -, ks, found, waiting⟩ := waits
    have same : d = d' := by simpa [Relay.owed] using mem
    subst same
    exact (Relay.once relays.owed queued head (Loop.mem_owed_of_pending found waiting (by simp [Reaction.link]))).elim
  case finishing d' =>
    have same : d = d' := by simpa [Relay.owed] using mem
    subst same
    obtain ⟨loopWaits, v, queued'⟩ := waits
    rw [queued] at queued'
    rcases List.mem_cons.1 queued' with same | later
    · cases same
      have left : (({ w with loop := { w.loop with jobs := rest } } : World).loop.owed Reaction.link :
          Multiset Link) = {.dispatched} := by
        refine add_right_cancel (b := {Link.finishing d}) ?_
        simpa [Loop.Job.owed, Reaction.link, Relay.owed, Multiset.insert_eq_cons, Multiset.singleton_add] using owes
      exact ⟨_, dispatchDone_relays v left relays.outline loopWaits (relays.unrefused.pop queued)⟩
    · exact (Relay.once relays.owed queued head (Loop.mem_owed_of_job later (by simp [Reaction.link]))).elim
  all_goals simp [Relay.owed] at mem

theorem handleServed_job {s : Nat} {h : CellId} (relays : Relays r w) (owned : Owned [] w)
    (queued : w.loop.jobs = .resume (.handleServed s h) o :: rest) :
    ∃ r', Relays r' ((handleServed s h o).run { w with loop := { w.loop with jobs := rest } }).2 := by
  have owes := Relay.owed_pop relays.owed queued
  have mem := Relay.mem_of_head relays.owed queued (x := .handling s h) (by simp [Reaction.link])
  cases r
  case handling s' d h' =>
    obtain ⟨rfl, rfl⟩ : s = s' ∧ h = h' := by simpa [Relay.owed] using mem
    have left : (({ w with loop := { w.loop with jobs := rest } } : World).loop.owed Reaction.link :
        Multiset Link) = {.dispatched, .finishing d} := by
      refine add_right_cancel (b := {Link.handling s h}) ?_
      simpa [Loop.Job.owed, Reaction.link, Relay.owed, Multiset.insert_eq_cons, Multiset.singleton_add] using owes
    exact ⟨_, handleServed_relays s o left relays.outline relays.waits (relays.unrefused.pop queued)
      fun c kept => (relays.apart owned kept).1⟩
  all_goals simp [Relay.owed] at mem

theorem startBound_job {a : Nat} {own : CellId} {p : Double} (relays : Relays r w)
    (queued : w.loop.jobs = .resume (.startBound a own) (.fulfilled (.port p)) :: rest) (idle : r = .idle) :
    ∃ r', Relays r' ((startBound a own (.fulfilled (.port p))).run
      { w with loop := { w.loop with jobs := rest } }).2 := by
  subst idle
  exact startBound_relays a own p (relays.pop queued rfl)

/-- The next job keeps the chain standing, given that a start whose bind gave
a port waits only while no start has bound. -/
theorem job (relays : Relays r w) (owned : Owned [] w)
    (idle : ∀ a own p, Job.resume (.startBound a own) (.fulfilled (.port p)) ∈ w.loop.jobs → r = .idle) :
    ∃ r', Relays r' (Move.job.apply w) := by
  cases queued : w.loop.jobs with
  | nil =>
    rw [Move.apply_job_of_idle queued]
    exact ⟨r, relays⟩
  | cons j rest =>
    rw [Move.apply_job_of_next (Loop.next_of_cons _ queued)]
    cases j with
    | task t => exact ⟨r, relays.job_calm owned queued rfl fun _ _ _ same => by cases same⟩
    | resume k o =>
      cases k
      case loopAccepted a own => exact relays.loopAccepted_job owned queued
      case loopDispatched a own => exact relays.loopDispatched_job queued
      case dispatchDone d => exact relays.dispatchDone_job queued
      case handleServed s h => exact relays.handleServed_job owned queued
      case startBound a own =>
        by_cases bound : ∃ p, o = .fulfilled (.port p)
        · obtain ⟨p, rfl⟩ := bound
          exact relays.startBound_job queued (idle a own p (by rw [queued]; exact List.mem_cons_self))
        · exact ⟨r, relays.job_calm owned queued rfl fun _ _ p same => bound ⟨p, by cases same; rfl⟩⟩
      all_goals exact ⟨r, relays.job_calm owned queued rfl fun _ _ _ same => by cases same⟩

/-! ## Every move -/

/-- A server that dispatches one connection at a time starts with the chain
at its start. -/
theorem of_booted {config : ServerConfig} {router : Option RouteTable} {bindError : Option String}
    {w₀ : World} (ready : booted config router bindError = .ok w₀) (sequential : config.dispatchMode = .sequential) :
    Relays .idle w₀ := by
  unfold booted dispatcherFor at ready
  simp only [sequential] at ready
  cases ready
  refine ⟨rfl, rfl, trivial, ⟨fun a acc found => (by cases found), fun c o found => ?_,
    fun k o queued => (by cases queued), fun s e f found => (by cases found)⟩⟩
  rcases c with _ | c
  · cases found
    trivial
  · cases found

/-! ## What the stage says -/

/-- When no job is queued, the loop waits on the one handler in progress,
the server dispatching, or no handler is in progress and the server is
accepting or has not started. -/
theorem quiet (relays : Relays r w) (idle : w.loop.jobs = []) :
    (w.phase = .dispatching ∧ (w.handlers []).length = 1) ∨
      ((w.phase = .accepting ∨ w.phase = .idle) ∧ w.handlers [] = []) := by
  have handlers := relays.handlers
  have waits := relays.waits
  rw [Relay.phase_eq relays.outline]
  cases r
  case finishing d =>
    obtain ⟨-, v, queued⟩ := waits
    simp [idle] at queued
  case dispatched =>
    obtain ⟨a, own, v, queued⟩ := waits
    simp [idle] at queued
  case handling s d h =>
    refine Or.inl ⟨rfl, ?_⟩
    have single : w.handlers [] = [s] := by simpa [Relay.owed, Link.handled] using handlers
    rw [single]
    rfl
  all_goals exact Or.inr ⟨by simp [Relay.phase], by simpa [Relay.owed, Link.handled] using handlers⟩

end Relays

/-! ## Along a run -/

section Runs

variable {config : ServerConfig} {router : Option RouteTable} {bindError : Option String} {w₀ : World}

end Runs

end Machine
end HttpStub
