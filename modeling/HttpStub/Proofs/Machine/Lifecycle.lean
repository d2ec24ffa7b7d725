import HttpStub.Proofs.Machine.Life

namespace HttpStub
namespace Machine

/-!
# The life of a server

A server is idle until a start binds; then it accepts and dispatches in
turn, and once stopped it stays stopped.  A start succeeds at most once:
while one waits for its bind, or after one succeeded, the server holds an
acceptor and every other start is refused as already started, and after a
stop every start is refused as stopped.  A start whose bind fails leaves
the server as a fresh one, idle, with no acceptor and no accept loop, so
that it can start again.

`Life` is the invariant behind these facts, over the life of a server and
the threads waiting in its world, given how many starts have succeeded and
whether a stop was called.  It holds of the world a script starts in, and
every move keeps it.
-/

open Std.Do Async

/-- The phase of a world's server. -/
def World.phase (w : World) : Phase :=
  (w.server.map (·.phase)).getD .idle

/-- The threads waiting in a world. -/
def World.threads (w : World) : Multiset Thread :=
  w.loop.owed Reaction.thread

theorem Quiet.phase {w : World} {p : Phase} {acc : Option Nat} {lp : Option CellId}
    {M : Multiset Thread} (quiet : Quiet Reaction.thread (some (p, acc, lp)) M w) : w.phase = p := by
  obtain ⟨s, hs, hl⟩ := Option.map_eq_some_iff.1 quiet.1
  simp_all [World.phase, Server.life]

/-- How a server's life stands after `started` starts succeeded, `halted`
telling whether a stop was called: its phase `p`, acceptor `acc` and accept
loop `lp`, with the threads `M` waiting. -/
structure Life (started : Nat) (halted : Bool) (p : Phase) (acc : Option Nat)
    (lp : Option CellId) (M : Multiset Thread) : Prop where
  /-- At most one start waits for its bind or has succeeded. -/
  once : M.count .binding + started ≤ 1
  /-- Such a start holds an acceptor until a stop. -/
  held : M.count .binding + started = 1 → halted = false → acc.isSome
  /-- A stop leaves the server stopped, without an acceptor. -/
  halt : halted = true → p = .stopped ∧ acc = none
  /-- Until a start succeeds there is no accept loop, and the server is
  idle unless stopped. -/
  unborn : started = 0 → (p = .idle ∨ p = .stopped) ∧ M.count .looping = 0 ∧ lp = none
  /-- After a start succeeded the server is never idle. -/
  born : started ≠ 0 → p ≠ .idle

/-- The invariant holds of a world. -/
def Lifecycle (started : Nat) (halted : Bool) (w : World) : Prop :=
  ∃ p acc lp M, Quiet Reaction.thread (some (p, acc, lp)) M w ∧ Life started halted p acc lp M

namespace Life

variable {S : Nat} {h : Bool} {p : Phase} {acc : Option Nat} {lp : Option CellId}
  {M E : Multiset Thread}

/-- A start that passes its guards claims an acceptor and waits for its
bind. -/
theorem start (life : Life S h p none lp M) (running : p ≠ .stopped) (a : Nat)
    (le : E ≤ {.binding}) : Life S h p (some a) lp (M + E) := by
  have free : h = false := by
    cases h
    · rfl
    · exact absurd (life.halt rfl).1 running
  have idle : M.count .binding + S = 0 := by
    have once := life.once
    have held : M.count .binding + S ≠ 1 := fun one => by simpa using life.held one free
    omega
  have unborn := life.unborn (by omega)
  rcases Multiset.le_singleton.1 le with rfl | rfl
  all_goals
    constructor <;> simp_all

/-- A stop leaves the server stopped, without an acceptor or a loop. -/
theorem stop (life : Life S h p acc lp M) : Life S true .stopped none none M := by
  have := life.once
  have := life.unborn
  constructor <;> simp_all

/-- A start whose bind reports the port starts the accept loop. -/
theorem bound (life : Life S h p acc lp (M + {.binding})) (c : CellId) (le : E ≤ {.looping}) :
    Life (S + 1) h p.afterRound acc (some c) (M + E) := by
  have once := life.once
  have held := life.held
  have halt := life.halt
  simp only [Multiset.count_add, Multiset.count_singleton_self] at once held
  have first : S = 0 ∧ M.count .binding = 0 := by omega
  rcases Multiset.le_singleton.1 le with rfl | rfl
  all_goals
    constructor <;> simp_all [Phase.afterRound_ne_idle]

/-- A start whose bind reports anything but a port gives up its wait. -/
theorem unbound (life : Life S h p acc lp (M + {.binding})) : Life S h p acc lp M := by
  have once := life.once
  have unborn := life.unborn
  have halt := life.halt
  simp only [Multiset.count_add, Multiset.count_singleton_self] at once
  have first : S = 0 ∧ M.count .binding = 0 := by omega
  constructor <;> simp_all

/-- A start whose bind fails gives its acceptor back. -/
theorem refused (life : Life S h p acc lp (M + {.binding})) : Life S h p none lp M := by
  have once := life.once
  have unborn := life.unborn
  have halt := life.halt
  simp only [Multiset.count_add, Multiset.count_singleton_self] at once
  have first : S = 0 ∧ M.count .binding = 0 := by omega
  constructor <;> simp_all

/-- The accept loop only runs once a start has succeeded. -/
theorem awake (life : Life S h p acc lp (M + {.looping})) : p ≠ .idle := by
  apply life.born
  intro never
  have := (life.unborn never).2.1
  simp at this

/-- A step of the accept loop moves the phase as phases move, and keeps
the acceptor and the loop. -/
theorem looped (life : Life S h p acc lp (M + {.looping})) {q : Phase} (moves : Phase.Moves p q)
    (le : E ≤ {.looping}) : Life S h q acc lp (M + E) := by
  have once := life.once
  have held := life.held
  have halt := life.halt
  have started : S ≠ 0 := fun never => by simpa using (life.unborn never).2.1
  have stays : h = true → q = .stopped := fun halted => by
    obtain ⟨rfl, -⟩ := halt halted
    exact moves.absorbing
  have up := moves.awake life.awake
  rcases Multiset.le_singleton.1 le with rfl | rfl
  all_goals
    constructor <;> simp_all

end Life

namespace Lifecycle

variable {S : Nat} {h : Bool} {w : World}

theorem of_quiet {α : Type} {f : Sim α}
    (spec : ∀ life L, ⦃fun w => ⌜Quiet Reaction.thread life L w⌝⦄ f
      ⦃⇓ _ w => ⌜Quiet Reaction.thread life L w⌝⦄)
    (life : Lifecycle S h w) : Lifecycle S h (f.run w).2 ∧ (f.run w).2.phase = w.phase := by
  obtain ⟨p, acc, lp, M, quiet, life⟩ := life
  have kept := Quiet.run (spec _ _) quiet
  exact ⟨⟨p, acc, lp, M, kept, life⟩, by rw [kept.phase, quiet.phase]⟩

/-- A start keeps the invariant and the phase, whether it is refused or
claims an acceptor. -/
theorem of_start (life : Lifecycle S h w) :
    Lifecycle S h (start.run w).2 ∧ (start.run w).2.phase = w.phase := by
  obtain ⟨p, acc, lp, M, quiet, life⟩ := life
  obtain ⟨s, hs, hl⟩ := Option.map_eq_some_iff.1 quiet.1
  simp only [Server.life, Prod.mk.injEq] at hl
  obtain ⟨rfl, rfl, rfl⟩ := hl
  by_cases bound : s.acceptor.isSome
  · rw [start_of_acceptor hs bound]
    have kept := World.refuse_quiet "Server is already started" quiet
    exact ⟨⟨_, _, _, _, kept, life⟩, by rw [kept.phase, quiet.phase]⟩
  have free : s.acceptor = none := Option.not_isSome_iff_eq_none.1 bound
  by_cases halted : s.phase = .stopped
  · rw [start_of_stopped hs free halted]
    have kept := World.refuse_quiet "Server has been stopped" quiet
    exact ⟨⟨_, _, _, _, kept, life⟩, by rw [kept.phase, quiet.phase]⟩
  obtain ⟨a, E, le, claimed⟩ := start_binds hs free halted quiet
  rw [free] at life
  exact ⟨⟨_, _, _, _, claimed, life.start halted a le⟩, by rw [claimed.phase, quiet.phase]⟩

theorem of_stop (life : Lifecycle S h w) :
    Lifecycle S true (stop.run w).2 ∧ Phase.Moves w.phase (stop.run w).2.phase := by
  obtain ⟨p, acc, lp, M, quiet, life⟩ := life
  obtain ⟨s, hs, hl⟩ := Option.map_eq_some_iff.1 quiet.1
  have halted := stop_run hs (by rwa [hl])
  exact ⟨⟨_, _, _, _, halted, life.stop⟩, by rw [halted.phase]; exact .halt _⟩

theorem threads_of_next {j : Job Reaction Value Failure} {loop : Loop Reaction Value Failure}
    (next : w.loop.next? = some (j, loop)) :
    w.threads = ({ w with loop } : World).threads + (Loop.Job.owed Reaction.thread j : Multiset Thread) := by
  unfold Loop.next? at next
  split at next
  · next j' rest queued =>
    obtain ⟨rfl, rfl⟩ := Prod.mk.inj (Option.some.inj next)
    simpa [World.threads] using Multiset.coe_eq_coe.2 (Loop.owed_of_cons w.loop Reaction.thread queued)
  · cases next

variable {p : Phase} {acc : Option Nat} {lp : Option CellId} {M : Multiset Thread}

theorem of_bound (a : Nat) (own : CellId) (port : Double)
    (quiet : Quiet Reaction.thread (some (p, acc, lp)) M w)
    (life : Life S h p acc lp (M + {.binding})) :
    Lifecycle (S + 1) h ((startBound a own (.fulfilled (.port port))).run w).2 ∧
      Phase.Moves w.phase ((startBound a own (.fulfilled (.port port))).run w).2.phase := by
  obtain ⟨c, E, le, looping⟩ := startBound_port a own port quiet
  exact ⟨⟨_, _, _, _, looping, life.bound c le⟩, by
    rw [looping.phase, quiet.phase]; exact p.moves_afterRound⟩

theorem of_unbound (a : Nat) (own : CellId) (o : Outcome Value Failure)
    (other : ∀ n, o ≠ .fulfilled (.port n)) (quiet : Quiet Reaction.thread (some (p, acc, lp)) M w)
    (life : Life S h p acc lp (M + {.binding})) :
    Lifecycle S h ((startBound a own o).run w).2 ∧
      Phase.Moves w.phase ((startBound a own o).run w).2.phase := by
  rcases o with v | f
  · have kept := startBound_other a own (fun n same => other n (congrArg _ same)) quiet
    exact ⟨⟨_, _, _, _, kept, life.unbound⟩, by rw [kept.phase, quiet.phase]; exact .stay p⟩
  · rw [startBound_rejected]
    have kept : Quiet Reaction.thread (some (p, none, lp)) M
        { w with server := w.server.map fun s => { s with acceptor := none },
                 loop := w.loop.settle own (.rejected f) } := by
      obtain ⟨s, hs, hl⟩ := Option.map_eq_some_iff.1 quiet.1
      simp_all [Quiet, Server.life]
    exact ⟨⟨_, _, _, _, kept, life.refused⟩, by rw [kept.phase, quiet.phase]; exact .stay p⟩

theorem of_looped {w' : World} (stepped : Stepped p acc lp M w')
    (quiet : Quiet Reaction.thread (some (p, acc, lp)) M w)
    (life : Life S h p acc lp (M + {.looping})) :
    Lifecycle S h w' ∧ Phase.Moves w.phase w'.phase := by
  obtain ⟨q, E, le, moves, looped⟩ := stepped
  exact ⟨⟨_, _, _, _, looped, life.looped moves le⟩, by rw [looped.phase, quiet.phase]; exact moves⟩

end Lifecycle

/-- Whether a job tells a start that its bind reported a port: the job in
which the start succeeds. -/
def startSucceeds : Job Reaction Value Failure → Bool
  | .resume (.startBound _ _) (.fulfilled (.port _)) => true
  | _ => false

theorem startSucceeds_of_calm {r : Reaction} (o : Outcome Value Failure)
    (calm : r.carriesLife = false) : startSucceeds (.resume r o) = false := by
  cases r <;> first | rfl | simp [Reaction.carriesLife] at calm

end Machine

namespace Session
namespace Server

open Std.Do Async Machine

/-- Whether a move is the job in which a start succeeds. -/
def Move.succeeds : Move → World → Bool
  | .job, w =>
    match w.loop.next? with
    | some (j, _) => startSucceeds j
    | none => false
  | _, _ => false

/-- Whether a move calls stop. -/
def Move.stops : Move → Bool
  | .op _ .stop => true
  | _ => false

/-- How many starts succeed along a run. -/
def Move.successes : List Move → World → Nat
  | [], _ => 0
  | m :: ms, w => (if m.succeeds w then 1 else 0) + Move.successes ms (m.apply w)

variable {S : Nat} {h : Bool} {w : World}

theorem Move.apply_job_of_next {j : Job Reaction Value Failure} {loop : Loop Reaction Value Failure}
    (next : w.loop.next? = some (j, loop)) :
    Move.apply .job w = ((runJob j).run { w with loop }).2 := by
  simp only [Move.apply, runNext, bind_run, get_run, next]
  rfl

/-- Running the next job keeps the invariant, counting the start it lets
succeed, and moves the phase as phases move. -/
theorem Lifecycle.of_job (life : Lifecycle S h w) :
    Lifecycle (S + if Move.job.succeeds w then 1 else 0) h (Move.job.apply w) ∧
      Phase.Moves w.phase (Move.job.apply w).phase := by
  obtain ⟨p, acc, lp, M, quiet, life⟩ := life
  cases next : w.loop.next? with
  | none =>
    have same : Move.apply .job w = w := by
      simp only [Move.apply, runNext, bind_run, get_run, next]
      rfl
    simp only [Move.succeeds, next, same, Bool.false_eq_true, if_false, Nat.add_zero]
    exact ⟨⟨p, acc, lp, M, quiet, life⟩, .stay _⟩
  | some jl =>
    obtain ⟨j, loop⟩ := jl
    have popped := Lifecycle.threads_of_next next
    rw [Move.apply_job_of_next next]
    simp only [Move.succeeds, next]
    have taken : Quiet Reaction.thread (some (p, acc, lp)) ({ w with loop } : World).threads
        { w with loop } := ⟨quiet.1, rfl⟩
    have rest : M = ({ w with loop } : World).threads + (Loop.Job.owed Reaction.thread j : Multiset Thread) := by
      rw [← popped]; exact quiet.2.symm
    rw [rest] at life
    rw [show w.phase = ({ w with loop } : World).phase from rfl]
    rcases j with ⟨r, o⟩ | r
    · by_cases calm : r.carriesLife = false
      · have silent : r.thread = [] := r.thread_silent calm
        simp only [Loop.Job.owed, silent, Multiset.coe_nil, add_zero] at life
        simp only [startSucceeds_of_calm o calm, Bool.false_eq_true, if_false, Nat.add_zero]
        have kept := Lifecycle.of_quiet (fun lf L => runJob_quiet lf L Reaction.thread_silent
          (.resume r o) (fun r' o' same => by cases same; exact calm)) ⟨p, acc, lp, _, taken, life⟩
        exact ⟨kept.1, kept.2 ▸ .stay _⟩
      · cases r <;> simp only [Reaction.carriesLife, not_true_eq_false] at calm
        case startBound a own =>
          simp only [Loop.Job.owed, Reaction.thread] at life
          by_cases port : ∃ n, o = .fulfilled (.port n)
          · obtain ⟨n, rfl⟩ := port
            exact Lifecycle.of_bound a own n taken life
          · simp only [not_exists] at port
            have fails : startSucceeds (.resume (.startBound a own) o) = false := by
              rcases o with v | f
              · cases v <;> first | rfl | exact absurd rfl (port _)
              · rfl
            simp only [fails, Bool.false_eq_true, if_false, Nat.add_zero]
            exact Lifecycle.of_unbound a own o port taken life
        case loopAccepted a own =>
          simp only [Loop.Job.owed, Reaction.thread] at life
          exact Lifecycle.of_looped (loopAccepted_run a own o life.awake taken) taken life
        case loopDispatched a own =>
          simp only [Loop.Job.owed, Reaction.thread] at life
          exact Lifecycle.of_looped (loopDispatched_run a own o taken) taken life
    · simp only [Loop.Job.owed, Multiset.coe_nil, add_zero] at life
      simp only [startSucceeds, Bool.false_eq_true, if_false, Nat.add_zero]
      have kept := Lifecycle.of_quiet (fun lf L => runJob_quiet lf L Reaction.thread_silent
        (.task r) (fun r' o' same => by cases same)) ⟨p, acc, lp, _, taken, life⟩
      exact ⟨kept.1, kept.2 ▸ .stay _⟩

/-- Every move keeps the invariant, counting the start it lets succeed and
the stop it calls, and moves the phase as phases move. -/
theorem Lifecycle.of_move (m : Move) (life : Lifecycle S h w) :
    Lifecycle (S + if m.succeeds w then 1 else 0) (h || m.stops) (m.apply w) ∧
      Phase.Moves w.phase (m.apply w).phase := by
  cases m with
  | job =>
    simpa [Move.stops] using Lifecycle.of_job life
  | begin k =>
    have kept := Lifecycle.of_quiet (fun lf L => beginStep_quiet lf L k) life
    simpa [Move.succeeds, Move.stops, Move.apply, kept.2] using And.intro kept.1 (Phase.Moves.stay w.phase)
  | op k o =>
    simp only [Move.succeeds, Move.stops, Move.apply, Bool.false_eq_true, if_false, Nat.add_zero]
    cases o with
    | start =>
      simp only [Server.begin, bind_run, Bool.or_false]
      have started := Lifecycle.of_start life
      have kept := Lifecycle.of_quiet
        (fun lf L => watch_quiet lf L Reaction.thread_silent k none (start.run w).1) started.1
      exact ⟨kept.1, by rw [kept.2, started.2]; exact .stay _⟩
    | stop =>
      simp only [Server.begin, bind_run, Bool.or_true]
      have stopped := Lifecycle.of_stop life
      have kept := Lifecycle.of_quiet
        (fun lf L => watch_quiet lf L Reaction.thread_silent k none (stop.run w).1) stopped.1
      exact ⟨kept.1, by rw [kept.2]; exact stopped.2⟩
    | drain =>
      simp only [Server.begin, bind_run, Bool.or_false]
      have drained := Lifecycle.of_quiet (fun lf L => drain_quiet lf L) life
      have kept := Lifecycle.of_quiet
        (fun lf L => watch_quiet lf L Reaction.thread_silent k none (drain.run w).1) drained.1
      exact ⟨kept.1, by rw [kept.2, drained.2]; exact .stay _⟩
    | client op =>
      have kept := Lifecycle.of_quiet (fun lf L => clientOp_quiet lf L Reaction.thread_silent op) life
      exact ⟨by simpa [Server.begin] using kept.1, by rw [Server.begin, kept.2]; exact .stay _⟩
    | state | settle | sleep _ =>
      simp only [Bool.or_false]
      exact ⟨life, .stay _⟩
  | fire limit =>
    obtain ⟨p, acc, lp, M, quiet, life⟩ := life
    simp only [Move.succeeds, Move.stops, Move.apply, Bool.false_eq_true, if_false, Nat.add_zero,
      Bool.or_false]
    cases fired : w.loop.fireDue? limit with
    | none => exact ⟨⟨p, acc, lp, M, quiet, life⟩, .stay _⟩
    | some loop =>
      have kept : Quiet Reaction.thread (some (p, acc, lp)) M { w with loop } :=
        ⟨quiet.1, by rw [← quiet.2, Loop.owed_fireDue _ _ fired]⟩
      exact ⟨⟨p, acc, lp, M, kept, life⟩, .stay _⟩
  | clock t =>
    obtain ⟨p, acc, lp, M, quiet, life⟩ := life
    simp only [Move.succeeds, Move.stops, Bool.false_eq_true, if_false, Nat.add_zero, Bool.or_false]
    exact ⟨⟨p, acc, lp, M, quiet, life⟩, .stay _⟩
  | network e =>
    obtain ⟨p, acc, lp, M, quiet, life⟩ := life
    simp only [Move.succeeds, Move.stops, Bool.false_eq_true, if_false, Nat.add_zero, Bool.or_false]
    exact ⟨⟨p, acc, lp, M, quiet, life⟩, .stay _⟩

/-- A run keeps the invariant, counting the starts that succeed along it
and whether it calls stop. -/
theorem Lifecycle.of_run (ms : List Move) (life : Lifecycle S h w) :
    Lifecycle (S + Move.successes ms w) (h || ms.any Move.stops) (Move.run ms w) := by
  induction ms generalizing S h w with
  | nil => simpa [Move.successes] using life
  | cons m ms ih =>
    have rest := ih (Lifecycle.of_move m life).1
    simp only [Move.run_cons, Move.successes, List.any_cons]
    simpa [Nat.add_assoc, Bool.or_assoc] using rest

theorem Lifecycle.of_booted {config : ServerConfig} {router : Option RouteTable}
    {bindError : Option String} {w₀ : World} (ready : booted config router bindError = .ok w₀) :
    Lifecycle 0 false w₀ := by
  have made := Quiet.run (dispatcherFor_quiet (T := Reaction.thread) none 0 config)
    (w := { bindError := bindError.map Failure.plain }) ⟨rfl, rfl⟩
  unfold booted at ready
  simp only at ready
  generalize (dispatcherFor config).run { bindError := bindError.map Failure.plain } = r at made ready
  obtain ⟨d, w⟩ := r
  cases d with
  | error f => cases ready
  | ok d =>
    cases ready
    refine ⟨.idle, none, none, 0, ⟨rfl, made.2⟩, ?_⟩
    constructor <;> simp

/-! ## Along every run of a script -/

section Runs

variable {config : ServerConfig} {router : Option RouteTable} {bindError : Option String}
  {w₀ : World}

theorem Lifecycle.of_reached (ready : booted config router bindError = .ok w₀) (ms : List Move) :
    Lifecycle (Move.successes ms w₀) (ms.any Move.stops) (Move.run ms w₀) := by
  simpa using Lifecycle.of_run ms (Lifecycle.of_booted ready)

theorem phase_moves (ready : booted config router bindError = .ok w₀) (ms : List Move) (m : Move) :
    Phase.Moves (Move.run ms w₀).phase (m.apply (Move.run ms w₀)).phase :=
  (Lifecycle.of_move m (Lifecycle.of_reached ready ms)).2

theorem stopped_stays (ready : booted config router bindError = .ok w₀) (ms ms' : List Move)
    (halted : (Move.run ms w₀).phase = .stopped) : (Move.run (ms ++ ms') w₀).phase = .stopped := by
  induction ms' using List.reverseRecOn with
  | nil => simpa using halted
  | append_singleton ms' m ih =>
    rw [← List.append_assoc, Move.run_append, Move.run_cons, Move.run_nil]
    have moves := phase_moves ready (ms ++ ms') m
    rw [ih] at moves
    exact moves.absorbing

theorem successes_le_one (ready : booted config router bindError = .ok w₀) (ms : List Move) :
    Move.successes ms w₀ ≤ 1 := by
  obtain ⟨p, acc, lp, M, quiet, life⟩ := Lifecycle.of_reached ready ms
  have := life.once
  omega

theorem start_claims_acceptor {w : World} {s : Server} (hs : w.server = some s)
    (free : s.acceptor = none) (running : s.phase ≠ .stopped) :
    ∃ a s', (start.run w).2.server = some s' ∧ s'.acceptor = some a := by
  obtain ⟨a, E, -, claimed⟩ := start_binds (M := w.threads) hs free running
    ⟨by simp [hs], rfl⟩
  obtain ⟨s', hs', hl'⟩ := Option.map_eq_some_iff.1 claimed.1
  simp only [Server.life, Prod.mk.injEq] at hl'
  exact ⟨a, s', hs', hl'.2.1⟩

/-- A start whose bind fails, on a server that was not stopped meanwhile,
rejects with the bind's failure and leaves a fresh server: idle, with no
acceptor and no accept loop, which the next start binds anew. -/
theorem failed_bind_leaves_fresh (ready : booted config router bindError = .ok w₀)
    (ms : List Move) {a : Nat} {own : CellId} {f : Failure} {loop : Loop Reaction Value Failure}
    (next : (Move.run ms w₀).loop.next? = some (.resume (.startBound a own) (.rejected f), loop))
    (running : (Move.run ms w₀).phase ≠ .stopped) :
    (Move.job.apply (Move.run ms w₀)).loop = loop.settle own (.rejected f) ∧
      (∃ s, (Move.job.apply (Move.run ms w₀)).server = some s ∧
        s.phase = .idle ∧ s.acceptor = none ∧ s.loop = none) ∧
      ∃ a' s', (start.run (Move.job.apply (Move.run ms w₀))).2.server = some s' ∧
        s'.acceptor = some a' := by
  obtain ⟨p, acc, lp, M, quiet, life⟩ := Lifecycle.of_reached ready ms
  have rest : M = ({ Move.run ms w₀ with loop } : World).threads + {.binding} := by
    have popped := Lifecycle.threads_of_next next
    simp only [Loop.Job.owed, Reaction.thread, Multiset.coe_singleton] at popped
    rw [← quiet.2]
    exact popped
  rw [rest] at life
  have first : Move.successes ms w₀ = 0 := by
    have := life.once
    simp only [Multiset.count_add, Multiset.count_singleton_self] at this
    omega
  obtain ⟨phase, -, none_loop⟩ := life.unborn first
  have idle : p = .idle := by
    rw [quiet.phase] at running
    simpa [running] using phase
  subst idle none_loop
  obtain ⟨s, hs, hl⟩ := Option.map_eq_some_iff.1 quiet.1
  simp only [Server.life, Prod.mk.injEq] at hl
  rw [Move.apply_job_of_next next,
    show runJob (.resume (.startBound a own) (.rejected f)) = startBound a own (.rejected f) from rfl,
    startBound_rejected]
  exact ⟨rfl, ⟨{ s with acceptor := none }, by simp [hs], hl.1, rfl, hl.2.2⟩,
    start_claims_acceptor (s := { s with acceptor := none }) (by simp [hs]) rfl (by simp [hl.1])⟩

/-- While a start waits for its bind, or after one succeeded, and until a
stop, every start is refused as already started and changes nothing but
its own rejected cell. -/
theorem start_refused_while_started (ready : booted config router bindError = .ok w₀)
    (ms : List Move) (unstopped : ms.any Move.stops = false)
    (started : 0 < (Move.run ms w₀).threads.count .binding ∨ Move.successes ms w₀ = 1) :
    start.run (Move.run ms w₀) =
      ((Move.run ms w₀).loop.cells.size, (Move.run ms w₀).refuse "Server is already started") := by
  obtain ⟨p, acc, lp, M, quiet, life⟩ := Lifecycle.of_reached ready ms
  have counted : M = (Move.run ms w₀).threads := quiet.2.symm
  subst counted
  have one : (Move.run ms w₀).threads.count .binding + Move.successes ms w₀ = 1 := by
    have := life.once
    omega
  have bound := life.held one unstopped
  obtain ⟨s, hs, hl⟩ := Option.map_eq_some_iff.1 quiet.1
  simp only [Server.life, Prod.mk.injEq] at hl
  exact start_of_acceptor hs (by rw [hl.2.1]; exact bound)

/-- After a stop, every start is refused as stopped and changes nothing but
its own rejected cell. -/
theorem start_refused_after_stop (ready : booted config router bindError = .ok w₀)
    (ms ms' : List Move) (k : Nat) :
    start.run (Move.run (ms ++ .op k .stop :: ms') w₀) =
      ((Move.run (ms ++ .op k .stop :: ms') w₀).loop.cells.size,
        (Move.run (ms ++ .op k .stop :: ms') w₀).refuse "Server has been stopped") := by
  obtain ⟨p, acc, lp, M, quiet, life⟩ := Lifecycle.of_reached ready (ms ++ .op k .stop :: ms')
  have halted := life.halt (by simp [Move.stops])
  obtain ⟨s, hs, hl⟩ := Option.map_eq_some_iff.1 quiet.1
  simp only [Server.life, Prod.mk.injEq] at hl
  exact start_of_stopped hs (hl.2.1.trans halted.2) (hl.1.trans halted.1)

/-- The life of a scripted server, along every run from the world it
starts in.  Its phase only moves from idle to accepting, between accepting
and dispatching, or to stopped, and once stopped it stays stopped.  At most
one start succeeds.  A start whose bind fails, unless the server was
stopped meanwhile, rejects with the bind's failure and leaves a fresh
server, idle, with no acceptor and no accept loop, which the next start
binds anew.  While a start waits for its bind, or after one succeeded, and
before any stop, a start is refused as already started; after a stop it is
refused as stopped; either way it changes nothing but its own cell. -/
theorem server_lifecycle (ready : booted config router bindError = .ok w₀) :
    (∀ (ms : List Move) (m : Move),
      Phase.Moves (Move.run ms w₀).phase (m.apply (Move.run ms w₀)).phase) ∧
    (∀ ms ms' : List Move,
      (Move.run ms w₀).phase = .stopped → (Move.run (ms ++ ms') w₀).phase = .stopped) ∧
    (∀ ms : List Move, Move.successes ms w₀ ≤ 1) ∧
    (∀ (ms : List Move) (a : Nat) (own : CellId) (f : Failure) (loop : Loop Reaction Value Failure),
      (Move.run ms w₀).loop.next? = some (.resume (.startBound a own) (.rejected f), loop) →
      (Move.run ms w₀).phase ≠ .stopped →
      (Move.job.apply (Move.run ms w₀)).loop = loop.settle own (.rejected f) ∧
      (∃ s, (Move.job.apply (Move.run ms w₀)).server = some s ∧
        s.phase = .idle ∧ s.acceptor = none ∧ s.loop = none) ∧
      ∃ a' s', (start.run (Move.job.apply (Move.run ms w₀))).2.server = some s' ∧
        s'.acceptor = some a') ∧
    (∀ ms : List Move, ms.any Move.stops = false →
      (0 < (Move.run ms w₀).threads.count .binding ∨ Move.successes ms w₀ = 1) →
      start.run (Move.run ms w₀) =
        ((Move.run ms w₀).loop.cells.size, (Move.run ms w₀).refuse "Server is already started")) ∧
    (∀ (ms ms' : List Move) (k : Nat),
      start.run (Move.run (ms ++ .op k .stop :: ms') w₀) =
        ((Move.run (ms ++ .op k .stop :: ms') w₀).loop.cells.size,
          (Move.run (ms ++ .op k .stop :: ms') w₀).refuse "Server has been stopped")) :=
  ⟨phase_moves ready, stopped_stays ready, successes_le_one ready,
    fun ms _ _ _ _ next running => failed_bind_leaves_fresh ready ms next running,
    start_refused_while_started ready, start_refused_after_stop ready⟩

end Runs

/-- A server with the default configuration starts at most once along any
run. -/
theorem default_server_starts_once :
    ∃ w₀, booted ServerConfig.default none none = .ok w₀ ∧
      ∀ ms : List Move, Move.successes ms w₀ ≤ 1 := by
  obtain ⟨w₀, ready⟩ : ∃ w₀, booted ServerConfig.default none none = .ok w₀ := ⟨_, rfl⟩
  exact ⟨w₀, ready, (server_lifecycle ready).2.2.1⟩

end Server
end Session
end HttpStub
