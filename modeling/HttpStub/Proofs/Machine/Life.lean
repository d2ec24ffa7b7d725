import HttpStub.Proofs.Machine.Frame

namespace HttpStub
namespace Machine

/-!
# What starting and stopping do to a server's life

A server's life is its phase, its acceptor and its accept loop.  Only
starting, stopping and the accept loop change it.  A start claims a new
acceptor and waits for its bind.  A bind that succeeds starts the accept
loop, which accepts, dispatches and accepts again until the server stops;
a bind that fails gives the acceptor back.  A stop marks the server stopped
and lets go of its acceptor and its loop.

What carries a life on are the reactions that will resume one of these: a
start waiting for its bind, and the loop waiting for an accept or a
dispatch.  Each lemma here says what one of these functions does to the
life and to those reactions, over the `Quiet` frame of everything else.
-/

open Std.Do Async

set_option mvcgen.warning false

/-- What carries a server's life on: a start waiting for its bind, or the
accept loop waiting for its next accept or dispatch. -/
inductive Thread where
  | binding
  | looping
  deriving DecidableEq

/-- The thread a reaction carries on, if any. -/
def Reaction.thread : Reaction → List Thread
  | .startBound .. => [.binding]
  | .loopAccepted .. | .loopDispatched .. => [.looping]
  | _ => []

theorem Reaction.thread_eq_nil (r : Reaction) : r.thread = [] ↔ r.carriesLife = false := by
  cases r <;> simp [Reaction.thread, Reaction.carriesLife]

theorem Reaction.thread_silent (r : Reaction) (calm : r.carriesLife = false) : r.thread = [] :=
  r.thread_eq_nil.2 calm

/-! ## Phases -/

/-- How a server's phase may move: it starts accepting, takes a connection,
goes back to accepting, or stops; or it stays as it is. -/
inductive Phase.Moves : Phase → Phase → Prop
  | stay (p : Phase) : Phase.Moves p p
  | start : Phase.Moves .idle .accepting
  | dispatch : Phase.Moves .accepting .dispatching
  | resume : Phase.Moves .dispatching .accepting
  | halt (p : Phase) : Phase.Moves p .stopped

/-- A stopped server stays stopped. -/
theorem Phase.Moves.absorbing {q : Phase} (moves : Phase.Moves .stopped q) : q = .stopped := by
  cases moves <;> rfl

/-- Once out of idle, a server never goes back to it. -/
theorem Phase.Moves.awake {p q : Phase} (moves : Phase.Moves p q) (awake : p ≠ .idle) :
    q ≠ .idle := by
  cases moves <;> simp_all

/-- The phase a round of the accept loop leaves: a stopped server stays
stopped, any other accepts. -/
def Phase.afterRound (p : Phase) : Phase :=
  if p = .stopped then .stopped else .accepting

@[simp] theorem Phase.afterRound_stopped : Phase.stopped.afterRound = .stopped := rfl

theorem Phase.afterRound_ne_idle (p : Phase) : p.afterRound ≠ .idle := by
  unfold Phase.afterRound
  split <;> simp

theorem Phase.moves_afterRound (p : Phase) : Phase.Moves p p.afterRound := by
  cases p <;> simp only [Phase.afterRound, reduceCtorEq, if_true, if_false] <;> constructor

/-! ## Running one function -/

section Runs

variable (w : World)

theorem stopped_run : stopped.run w = ((w.server.map (·.phase == .stopped)).getD true, w) := rfl

end Runs

variable {w : World} {p : Phase} {acc : Option Nat} {lp : Option CellId} {M : Multiset Thread}

theorem setPhase_run (q : Phase) (quiet : Quiet Reaction.thread (some (p, acc, lp)) M w) :
    Quiet Reaction.thread (some (q, acc, lp)) M ((setPhase q).run w).2 := by
  obtain ⟨life, owed⟩ := quiet
  refine ⟨?_, owed⟩
  obtain ⟨s, hs, hl⟩ := Option.map_eq_some_iff.1 life
  simp_all [setPhase, modifyServer_run, Server.life]

theorem stopped_of_quiet (quiet : Quiet Reaction.thread (some (p, acc, lp)) M w) :
    stopped.run w = (p == .stopped, w) := by
  obtain ⟨s, hs, hl⟩ := Option.map_eq_some_iff.1 quiet.1
  simp_all [stopped_run, Server.life]

/-! ## The accept loop -/

/-- A world a step of the accept loop from phase `p` may leave: the phase
has moved as phases may, the acceptor and the loop are as they were, and
at most one more step of the loop waits. -/
def Stepped (p : Phase) (acc : Option Nat) (lp : Option CellId) (M : Multiset Thread)
    (w : World) : Prop :=
  ∃ q, ∃ E ≤ ({.looping} : Multiset Thread),
    Phase.Moves p q ∧ Quiet Reaction.thread (some (q, acc, lp)) (M + E) w

theorem Stepped.of_quiet {q : Phase} (moves : Phase.Moves p q)
    (quiet : Quiet Reaction.thread (some (q, acc, lp)) M w) : Stepped p acc lp M w :=
  ⟨q, 0, Multiset.zero_le _, moves, by simpa using quiet⟩

/-- A round of the accept loop ends it on a stopped server, and otherwise
accepts and waits for the accept. -/
theorem loopRound_run (a : Nat) (own : CellId)
    (quiet : Quiet Reaction.thread (some (p, acc, lp)) M w) :
    ∃ E ≤ ({.looping} : Multiset Thread),
      Quiet Reaction.thread (some (p.afterRound, acc, lp)) (M + E) ((loopRound a own).run w).2 := by
  unfold loopRound
  rw [bind_run, stopped_of_quiet quiet]
  by_cases halted : p = .stopped
  · subst halted
    refine ⟨0, Multiset.zero_le _, ?_⟩
    have ended := setPhase_run .stopped quiet
    simp only [beq_self_eq_true, if_true, bind_run, settle_run, Phase.afterRound]
    simpa [Quiet] using ended
  · have accepting := setPhase_run .accepting quiet
    have accepted := Quiet.run (accept_quiet _ _ a) accepting
    obtain ⟨E, le, grown⟩ := coe_owed_onSettled (T := Reaction.thread)
      ((accept a).run ((setPhase .accepting).run w).2).2.loop
      ((accept a).run ((setPhase .accepting).run w).2).1 (.loopAccepted a own)
    refine ⟨E, by simpa [Reaction.thread] using le, ?_⟩
    simp only [halted, beq_iff_eq, if_false, bind_run, onSettled_run, Phase.afterRound]
    exact ⟨accepted.1, by rw [grown, accepted.2]⟩

theorem Stepped.loopRound (a : Nat) (own : CellId)
    (quiet : Quiet Reaction.thread (some (p, acc, lp)) M w) :
    Stepped p acc lp M ((loopRound a own).run w).2 :=
  have ⟨E, le, rounded⟩ := loopRound_run a own quiet
  ⟨p.afterRound, E, le, p.moves_afterRound, rounded⟩

theorem settle_quiet_run (c : CellId) (o : Outcome Value Failure)
    (quiet : Quiet Reaction.thread (some (p, acc, lp)) M w) :
    Quiet Reaction.thread (some (p, acc, lp)) M ((settle c o).run w).2 := by
  simpa [settle_run, Quiet] using quiet

/-- The accept loop resumes after an accept: a closed acceptor stops it, a
failed accept starts another round, and a connection is dispatched unless
the server stopped meanwhile. -/
theorem loopAccepted_run (a : Nat) (own : CellId) (o : Outcome Value Failure)
    (awake : p ≠ .idle) (quiet : Quiet Reaction.thread (some (p, acc, lp)) M w) :
    Stepped p acc lp M ((loopAccepted a own o).run w).2 := by
  rcases o with v | f
  · cases v
    case socket s =>
      simp only [loopAccepted, bind_run, stopped_of_quiet quiet]
      by_cases halted : p = .stopped
      · subst halted
        have closed := Quiet.run (close_quiet _ _ s) quiet
        simp only [beq_self_eq_true, if_true, bind_run]
        exact Stepped.of_quiet (.stay _) (settle_quiet_run _ _ (setPhase_run .stopped closed))
      · have taking := setPhase_run .dispatching quiet
        have tracked := Quiet.run (track_quiet _ _ s) taking
        have dispatched := Quiet.run (dispatch_quiet _ _ Reaction.thread_silent s) tracked
        simp only [halted, beq_iff_eq, if_false, bind_run]
        generalize (dispatch s).run _ = r at dispatched ⊢
        obtain ⟨d, w'⟩ := r
        obtain ⟨E, le, grown⟩ := coe_owed_onSettled (T := Reaction.thread) w'.loop d
          (.loopDispatched a own)
        have moves : Phase.Moves p .dispatching := by
          cases p <;> first | contradiction | constructor
        refine ⟨.dispatching, E, by simpa [Reaction.thread] using le, moves, ?_⟩
        simp only [onSettled_run]
        exact ⟨dispatched.1, by rw [grown, dispatched.2]⟩
    all_goals exact Stepped.of_quiet (.stay p) (settle_quiet_run _ _ quiet)
  · by_cases closed : f.kind = .acceptorClosed
    · simp only [loopAccepted, closed, beq_self_eq_true, if_true, bind_run]
      exact Stepped.of_quiet (.halt p) (settle_quiet_run _ _ (setPhase_run .stopped quiet))
    · simp only [loopAccepted, closed, beq_iff_eq, if_false, bind_run]
      exact Stepped.loopRound a own (by simpa [log, note_run, Quiet] using quiet)

/-- The accept loop resumes after a dispatch: it starts another round, or
ends in the phase it had if the dispatch failed. -/
theorem loopDispatched_run (a : Nat) (own : CellId) (o : Outcome Value Failure)
    (quiet : Quiet Reaction.thread (some (p, acc, lp)) M w) :
    Stepped p acc lp M ((loopDispatched a own o).run w).2 := by
  rcases o with v | f
  · exact Stepped.loopRound a own quiet
  · exact Stepped.of_quiet (.stay p) (settle_quiet_run _ _ quiet)

/-! ## Starting and stopping -/

/-- The world after a call that only makes its cell and rejects it with
`message`. -/
def World.refuse (w : World) (message : String) : World :=
  { w with loop := (w.loop.fresh.2).settle w.loop.cells.size (.rejected (Failure.plain message)) }

theorem World.refuse_quiet {β : Type} {T : Reaction → List β}
    {life : Option (Phase × Option Nat × Option CellId)} {L : Multiset β} (message : String)
    (quiet : Quiet T life L w) : Quiet T life L (w.refuse message) := by
  simpa [World.refuse, Quiet] using quiet

theorem start_of_acceptor {s : Server} (hs : w.server = some s) (bound : s.acceptor.isSome) :
    start.run w = (w.loop.cells.size, w.refuse "Server is already started") := by
  simp only [start, bind_run, fresh_run, get_run, hs, bound, if_true, settle_run]
  rw [← hs]
  rfl

/-- A start on a stopped server without an acceptor only makes its cell
and rejects it. -/
theorem start_of_stopped {s : Server} (hs : w.server = some s) (free : s.acceptor = none)
    (halted : s.phase = .stopped) :
    start.run w = (w.loop.cells.size, w.refuse "Server has been stopped") := by
  simp only [start, bind_run, fresh_run, get_run, hs, free, halted, Option.isSome_none,
    beq_self_eq_true, if_true, Bool.false_eq_true, if_false, settle_run]
  rw [← hs]
  rfl

theorem start_binds {s : Server} (hs : w.server = some s) (free : s.acceptor = none)
    (running : s.phase ≠ .stopped) (quiet : Quiet Reaction.thread (some s.life) M w) :
    ∃ a, ∃ E ≤ ({.binding} : Multiset Thread),
      Quiet Reaction.thread (some (s.phase, some a, s.loop)) (M + E) (start.run w).2 := by
  have made : Quiet Reaction.thread (some s.life) M
      { w with loop := w.loop.fresh.2, server := some s } := by
    simpa [Quiet, hs] using quiet
  have created := Quiet.run (newAcceptor_quiet _ _) made
  simp only [start, bind_run, fresh_run, get_run, hs, free, Option.isSome_none, Bool.false_eq_true,
    if_false, running, beq_iff_eq]
  generalize newAcceptor.run { w with loop := w.loop.fresh.2, server := some s } = r at created ⊢
  obtain ⟨a, w₂⟩ := r
  have claimed : Quiet Reaction.thread (some (s.phase, some a, s.loop)) M
      ((modifyServer fun srv => { srv with acceptor := some a }).run w₂).2 := by
    obtain ⟨life, owed⟩ := created
    obtain ⟨s₂, hs₂, hl⟩ := Option.map_eq_some_iff.1 life
    simp_all [modifyServer_run, Quiet, Server.life]
  have bound := Quiet.run
    (bind_quiet _ _ a ⟨s.config.port, some s.config.host, some s.config.backlog⟩) claimed
  generalize (bind a _).run _ = r at bound ⊢
  obtain ⟨b, w₄⟩ := r
  obtain ⟨E, le, grown⟩ := coe_owed_onSettled (T := Reaction.thread) w₄.loop b
    (.startBound a w.loop.cells.size)
  refine ⟨a, E, by simpa [Reaction.thread] using le, ?_⟩
  simp only [onSettled_run, pure_run]
  exact ⟨bound.1, by rw [grown, bound.2]⟩

theorem acceptLoop_run (a : Nat) (quiet : Quiet Reaction.thread (some (p, acc, lp)) M w) :
    ∃ E ≤ ({.looping} : Multiset Thread),
      Quiet Reaction.thread (some (p.afterRound, acc, lp)) (M + E) ((acceptLoop a).run w).2 := by
  simp only [acceptLoop, bind_run, fresh_run, pure_run]
  exact loopRound_run a _ (by simpa [Quiet] using quiet)

/-- A start whose bind reports the port announces it, starts the accept loop
and records it. -/
theorem startBound_port (a : Nat) (own : CellId) (port : Double)
    (quiet : Quiet Reaction.thread (some (p, acc, lp)) M w) :
    ∃ c, ∃ E ≤ ({.looping} : Multiset Thread),
      Quiet Reaction.thread (some (p.afterRound, acc, some c)) (M + E)
        ((startBound a own (.fulfilled (.port port))).run w).2 := by
  simp only [startBound, bind_run, log, note_run]
  obtain ⟨E, le, looping⟩ := acceptLoop_run a (w := { w with notices := (w.notices.push _).push _ })
    (by simpa [Quiet] using quiet)
  generalize (acceptLoop a).run _ = r at looping ⊢
  obtain ⟨c, w'⟩ := r
  refine ⟨c, E, le, ?_⟩
  obtain ⟨life, owed⟩ := looping
  obtain ⟨s, hs, hl⟩ := Option.map_eq_some_iff.1 life
  simp_all [modifyServer_run, settle_run, Quiet, Server.life]

theorem startBound_other (a : Nat) (own : CellId) {v : Value} (other : ∀ n, v ≠ .port n)
    (quiet : Quiet Reaction.thread (some (p, acc, lp)) M w) :
    Quiet Reaction.thread (some (p, acc, lp)) M ((startBound a own (.fulfilled v)).run w).2 := by
  cases v
  case port n => exact absurd rfl (other n)
  all_goals exact settle_quiet_run _ _ quiet

/-- A start whose bind fails gives the acceptor back and rejects with the
bind's failure. -/
theorem startBound_rejected (a : Nat) (own : CellId) (f : Failure) :
    (startBound a own (.rejected f)).run w =
      ((), { w with server := w.server.map fun s => { s with acceptor := none },
                    loop := w.loop.settle own (.rejected f) }) := rfl

/-- Stopping marks the server stopped and lets go of its acceptor and its
loop; everything else it does is quiet. -/
theorem stop_run {s : Server} (hs : w.server = some s)
    (quiet : Quiet Reaction.thread (some s.life) M w) :
    Quiet Reaction.thread (some (.stopped, none, none)) M (stop.run w).2 := by
  have halted : Quiet Reaction.thread (some (.stopped, none, none)) M
      { w with loop := w.loop.fresh.2,
               server := some { s with acceptor := none, loop := none, phase := .stopped } } := by
    simpa [Quiet, Server.life] using quiet.2
  simp only [stop, bind_run, fresh_run, get_run, hs, modifyServer_run, Option.map_some]
  refine Quiet.run ?_ halted
  mvcgen [settle, onSettled, modifyServer_quiet]
  all_goals first
    | exact Reaction.thread_silent
    | exact fun _ => rfl
    | simp_all +zetaDelta [Quiet, coe_owed_onSettled_silent, Reaction.thread_eq_nil, Reaction.carriesLife]

end Machine
end HttpStub
