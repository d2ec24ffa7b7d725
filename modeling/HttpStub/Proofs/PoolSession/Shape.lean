import HttpStub.Session.Pool
import HttpStub.Proofs.Loop

namespace HttpStub
namespace Session
namespace Pool

/-!
# How the tasks of a session wait

A session runs each probe task that does not throw as a chain of two cells.
The task waits on a gate: the script's gate of a deferred task, or a gate of
its own that a queued job opens or fails.  When the gate settles, the task's
own cell settles with the same outcome, and the pool's reaction on the own
cell reports the task and frees its slot.

`Shape` says how the cells and jobs of a session hang together between two
steps: an own cell carries the pool's reaction for its task and nothing
else, and nothing settles it but its task passing its gate; a waiting task
waits on the right gate; and every queued job carries the outcome its task
passes with.  Every lemma here shows that one thing a session does keeps
this shape.
-/

open Async

variable {α : Type}

/-! ## Tasks and their gates -/

/-- Whether a task throws as soon as it is started. -/
def Probe.throws (t : Probe) : Bool :=
  match t.mode with
  | .syncThrow _ => true
  | _ => false

/-- The script's gate a task waits on: a deferred task's own gate. -/
def Probe.scripted (t : Probe) : Option CellId :=
  match t.mode with
  | .deferred => t.gate
  | _ => none

/-- The message a task's gate fails with, for a task that makes its gate
itself. -/
def Probe.fails (t : Probe) : Option String :=
  match t.mode with
  | .immediateReject m => some m
  | _ => none

/-- How a gate that a queued job opens settles. -/
def gateOutcome : Option String → Outcome Unit (Fault α)
  | some m => .rejected (.error m)
  | none => .fulfilled ()

/-- What a task passes its gate with, once that is decided. -/
def Probe.passed (l : Loop Reaction Unit (Fault α)) (t : Probe) :
    Option (Outcome Unit (Fault α)) :=
  match t.scripted with
  | some g => l.outcome? g
  | none => some (gateOutcome t.fails)

/-- The task a reaction reports to the pool. -/
def Reaction.reports : Reaction → List Probe
  | .taskSettled t => [t]
  | _ => []

/-- The tasks that a loop still owes the pool a report for. -/
def running (l : Loop Reaction Unit (Fault α)) : List Probe :=
  l.owed Reaction.reports

@[simp] theorem note_loop (s : State α) (n : Notice α) : (s.note n).loop = s.loop := rfl
@[simp] theorem note_pool (s : State α) (n : Notice α) : (s.note n).pool = s.pool := rfl
@[simp] theorem note_gates (s : State α) (n : Notice α) : (s.note n).gates = s.gates := rfl
@[simp] theorem note_notices (s : State α) (n : Notice α) :
    (s.note n).notices = s.notices.push n := rfl

/-! ## The shape between two steps -/

/-- Where the reaction for a task passing its gate may point: the task's own
cell, still waiting with the pool's reaction on it, or settled. -/
def PassTarget (l : Loop Reaction Unit (Fault α)) (t : Probe) (o : CellId) : Prop :=
  l.cells[o]? = some (.pending [.taskSettled t]) ∨ ∃ r, l.cells[o]? = some (.settled r)

/-- A task waits on cell `c` as it should: `c` is its scripted gate, or a gate
of its own whose opening is queued and that neither the script nor an idle
waiter can reach. -/
def Waits (s : State α) (t : Probe) (c : CellId) : Prop :=
  match t.scripted with
  | some g => g = c
  | none =>
    t.throws = false ∧ .task (.openGate c t.fails) ∈ s.loop.jobs ∧
      c ∉ s.gates.map Prod.snd ∧ c ∉ s.pool.idleWaiters

/-- The shape of a session between two steps. -/
structure Shape (s : State α) : Prop where
  gates_inside : ∀ c ∈ s.gates.map Prod.snd, c < s.loop.cells.size
  waiters_inside : ∀ w ∈ s.pool.idleWaiters, w < s.loop.cells.size
  queued_gates : ∀ t ∈ s.pool.queue, ∀ g, t.scripted = some g → g ∈ s.gates.map Prod.snd
  /-- The script and the idle waiters never settle an own cell. -/
  outside : ∀ c ∈ s.gates.map Prod.snd ++ s.pool.idleWaiters, ∀ ks : List Reaction,
    s.loop.cells[c]? = some (.pending ks) → ∀ t, .taskSettled t ∉ ks
  /-- An own cell carries the pool's reaction and nothing else. -/
  own : ∀ (c : CellId) (ks : List Reaction) (t : Probe),
    s.loop.cells[c]? = some (.pending ks) → .taskSettled t ∈ ks →
      ks = [.taskSettled t] ∧ t.throws = false
  waiting : ∀ (c : CellId) (ks : List Reaction) (t : Probe) (o : CellId),
    s.loop.cells[c]? = some (.pending ks) → .gatePassed t o ∈ ks →
      PassTarget s.loop t o ∧ Waits s t c
  passing : ∀ (t : Probe) (o : CellId) (r : Outcome Unit (Fault α)),
    .resume (.gatePassed t o) r ∈ s.loop.jobs → PassTarget s.loop t o ∧ t.passed s.loop = some r
  reporting : ∀ (t : Probe) (r : Outcome Unit (Fault α)),
    .resume (.taskSettled t) r ∈ s.loop.jobs → t.passed s.loop = some r ∧ t.throws = false
  /-- A queued opening settles a gate of its own, on which only tasks wait
  that made it and fail as it fails. -/
  opening : ∀ (g : CellId) (f : Option String), .task (.openGate g f) ∈ s.loop.jobs →
    g < s.loop.cells.size ∧ g ∉ s.gates.map Prod.snd ∧ ∀ ks : List Reaction,
      s.loop.cells[g]? = some (.pending ks) →
        ∀ k ∈ ks, ∃ t o, k = .gatePassed t o ∧ t.scripted = none ∧ t.fails = f
  /-- A waiting own cell is waited for: its task's gate passing is on its way. -/
  passes : ∀ (o : CellId) (t : Probe), s.loop.cells[o]? = some (.pending [.taskSettled t]) →
    (∃ (c : CellId) (ks : List Reaction), s.loop.cells[c]? = some (.pending ks) ∧
      .gatePassed t o ∈ ks) ∨ ∃ r, .resume (.gatePassed t o) r ∈ s.loop.jobs

theorem Shape.note {s : State α} (shape : Shape s) (n : Notice α) : Shape (s.note n) := by
  cases shape
  constructor <;> assumption

theorem Probe.passed_keeps {l l' : Loop Reaction Unit (Fault α)} (keeps : l.Keeps l') (t : Probe)
    {r : Outcome Unit (Fault α)} (passed : t.passed l = some r) : t.passed l' = some r := by
  unfold Probe.passed at passed ⊢
  cases scripted : t.scripted with
  | some g =>
    rw [scripted] at passed
    exact keeps g r passed
  | none =>
    rw [scripted] at passed
    exact passed

theorem PassTarget.keeps {l l' : Loop Reaction Unit (Fault α)} {t : Probe} {o : CellId}
    (target : PassTarget l t o) (same : l'.cells[o]? = l.cells[o]?) : PassTarget l' t o := by
  unfold PassTarget
  rw [same]
  exact target

/-- Whether a task waits on a cell as it should changes only with the
openings queued for the cell, and with the script's gates and the idle
waiters. -/
theorem Waits.mono {s s' : State α} {t : Probe} {c : CellId} (waits : Waits s t c)
    (opened : ∀ f, .task (.openGate c f) ∈ s.loop.jobs → .task (.openGate c f) ∈ s'.loop.jobs)
    (gates : c ∉ s.gates.map Prod.snd → c ∉ s'.gates.map Prod.snd)
    (waiters : c ∉ s.pool.idleWaiters → c ∉ s'.pool.idleWaiters) : Waits s' t c := by
  unfold Waits at waits ⊢
  split at waits
  · exact waits
  · obtain ⟨quiet, queued, notGate, notWaiter⟩ := waits
    exact ⟨quiet, opened _ queued, gates notGate, waiters notWaiter⟩

/-! ## Settling a cell -/

/-- Settling cell `c` with `o` keeps the shape: every task waiting on `c`,
to pass its gate or to report, passes with `o` once it is settled. -/
def Settles (s : State α) (c : CellId) (o : Outcome Unit (Fault α)) : Prop :=
  ∀ ks : List Reaction, s.loop.cells[c]? = some (.pending ks) → ∀ t p,
    (.gatePassed t p ∈ ks → t.passed (s.loop.settle c o) = some o) ∧
      (.taskSettled t ∈ ks → t.passed (s.loop.settle c o) = some o)

theorem Shape.settle {s : State α} (shape : Shape s) {c : CellId} {o : Outcome Unit (Fault α)}
    (settles : Settles s c o) : Shape { s with loop := s.loop.settle c o } := by
  by_cases pending : ∃ ks, s.loop.cells[c]? = some (.pending ks)
  case neg =>
    rw [Loop.settle_of_not_pending _ (fun ks found => pending ⟨ks, found⟩)]
    cases shape
    constructor <;> assumption
  obtain ⟨ks, pending⟩ := pending
  have passWith := settles ks pending
  have keeps := Loop.keeps_settle s.loop c o
  have cells := Loop.getElem?_settle s.loop (o := o) pending
  have jobs : (s.loop.settle c o).jobs = s.loop.jobs ++ ks.map (Job.resume · o) := by
    rw [Loop.settle_of_pending _ pending]
  have size : (s.loop.settle c o).cells.size = s.loop.cells.size := by
    rw [Loop.settle_of_pending _ pending, Array.size_modify]
  have target : ∀ t p, PassTarget s.loop t p → PassTarget (s.loop.settle c o) t p := by
    intro t p was
    by_cases same : c = p
    · subst same
      exact Or.inr ⟨o, by rw [cells, if_pos rfl]⟩
    · exact was.keeps (by rw [cells p, if_neg same])
  have other : ∀ x ks', (s.loop.settle c o).cells[x]? = some (.pending ks') →
      c ≠ x ∧ s.loop.cells[x]? = some (.pending ks') := by
    intro x ks' found
    rw [cells x] at found
    split_ifs at found with same
    · cases found
    · exact ⟨same, found⟩
  constructor
  · intro x mem
    rw [size]
    exact shape.gates_inside x mem
  · intro w mem
    rw [size]
    exact shape.waiters_inside w mem
  · exact shape.queued_gates
  · intro x mem ks' found
    exact shape.outside x mem ks' (other x ks' found).2
  · intro x ks' t found
    exact shape.own x ks' t (other x ks' found).2
  · intro x ks' t p found mem
    obtain ⟨tg, waits⟩ := shape.waiting x ks' t p (other x ks' found).2 mem
    refine ⟨target t p tg, waits.mono (fun f opened => ?_) id id⟩
    rw [jobs]
    exact List.mem_append_left _ opened
  · intro t p r mem
    rw [jobs, List.mem_append] at mem
    rcases mem with old | new
    · obtain ⟨tg, passed⟩ := shape.passing t p r old
      exact ⟨target t p tg, Probe.passed_keeps keeps t passed⟩
    · obtain ⟨k, mem, same⟩ := List.mem_map.1 new
      cases same
      exact ⟨target t p (shape.waiting c ks t p pending mem).1, (passWith t p).1 mem⟩
  · intro t r mem
    rw [jobs, List.mem_append] at mem
    rcases mem with old | new
    · obtain ⟨passed, quiet⟩ := shape.reporting t r old
      exact ⟨Probe.passed_keeps keeps t passed, quiet⟩
    · obtain ⟨k, mem, same⟩ := List.mem_map.1 new
      cases same
      exact ⟨(passWith t 0).2 mem, (shape.own c ks t pending mem).2⟩
  · intro g f mem
    rw [jobs, List.mem_append] at mem
    rcases mem with old | new
    · obtain ⟨inside, notGate, waiters⟩ := shape.opening g f old
      exact ⟨size ▸ inside, notGate, fun ks' found => waiters ks' (other g ks' found).2⟩
    · obtain ⟨k, _, same⟩ := List.mem_map.1 new
      cases same
  · intro p t found
    obtain ⟨_, was⟩ := other p _ found
    rcases shape.passes p t was with ⟨x, ks', waiting, mem⟩ | ⟨r, queued⟩
    · by_cases same : c = x
      · subst same
        rw [pending] at waiting
        cases waiting
        exact Or.inr ⟨o, by rw [jobs]; exact List.mem_append_right _ (List.mem_map_of_mem mem)⟩
      · refine Or.inl ⟨x, ks', ?_, mem⟩
        rw [cells x, if_neg same]
        exact waiting
    · exact Or.inr ⟨r, by rw [jobs]; exact List.mem_append_left _ queued⟩

/-- The script and the idle waiters may settle their cells with anything: only
tasks that wait on such a cell as their scripted gate wait on it. -/
theorem Shape.settles_outside {s : State α} (shape : Shape s) {c : CellId}
    (mem : c ∈ s.gates.map Prod.snd ++ s.pool.idleWaiters) (o : Outcome Unit (Fault α)) :
    Settles s c o := by
  intro ks pending t p
  refine ⟨fun passing => ?_, fun report => absurd report (shape.outside c mem ks pending t)⟩
  have waits := (shape.waiting c ks t p pending passing).2
  unfold Waits at waits
  unfold Probe.passed
  split at waits
  · rw [waits]
    exact Loop.outcome?_settle _ pending o
  · obtain ⟨_, _, notGate, notWaiter⟩ := waits
    rcases List.mem_append.1 mem with gate | waiter
    · exact absurd gate notGate
    · exact absurd waiter notWaiter

theorem Shape.settle_all {s : State α} (shape : Shape s) (o : Outcome Unit (Fault α)) :
    ∀ cs : List CellId, (∀ c ∈ cs, c ∈ s.gates.map Prod.snd ++ s.pool.idleWaiters) →
      Shape { s with loop := cs.foldl (fun l c => l.settle c o) s.loop }
  | [], _ => by
    cases shape
    constructor <;> assumption
  | c :: cs, outside => by
    have first := shape.settle (shape.settles_outside (outside c (List.mem_cons_self ..)) o)
    exact first.settle_all o cs fun c' mem => outside c' (List.mem_cons_of_mem c mem)

theorem Shape.settles_opening {s : State α} (shape : Shape s) {g : CellId} {f : Option String}
    (mem : .task (.openGate g f) ∈ s.loop.jobs) : Settles s g (gateOutcome f) := by
  intro ks pending t p
  obtain ⟨_, _, waiters⟩ := shape.opening g f mem
  refine ⟨fun passing => ?_, fun report => ?_⟩
  · obtain ⟨t', p', same, scripted, fails⟩ := waiters ks pending _ passing
    cases same
    unfold Probe.passed
    rw [scripted, fails]
  · obtain ⟨t', p', same, _⟩ := waiters ks pending _ report
    cases same

theorem Shape.settles_own {s : State α} (shape : Shape s) {t : Probe} {o : CellId}
    {r : Outcome Unit (Fault α)} (mem : .resume (.gatePassed t o) r ∈ s.loop.jobs) :
    Settles s o r := by
  intro ks pending t' p
  obtain ⟨target, passed⟩ := shape.passing t o r mem
  rcases target with own | ⟨_, settled⟩
  · rw [pending] at own
    cases own
    refine ⟨fun passing => by simp at passing, fun report => ?_⟩
    simp only [List.mem_singleton, Reaction.taskSettled.injEq] at report
    subst report
    exact Probe.passed_keeps (Loop.keeps_settle _ _ _) t' passed
  · rw [pending] at settled
    cases settled

/-! ## Running a job and changing the pool -/

/-- A queued job that nothing waits for: an opening whose gate is settled, a
gate passing whose own cell is settled, or any other job. -/
def Spare (s : State α) : Job Reaction Unit (Fault α) → Prop
  | .task (.openGate g _) => ∀ ks, s.loop.cells[g]? ≠ some (.pending ks)
  | .resume (.gatePassed t o) _ => s.loop.cells[o]? ≠ some (.pending [.taskSettled t])
  | _ => True

theorem Shape.pop {s : State α} (shape : Shape s) {j : Job Reaction Unit (Fault α)}
    {rest : List (Job Reaction Unit (Fault α))} (queued : s.loop.jobs = j :: rest)
    (spare : Spare s j) : Shape { s with loop := { s.loop with jobs := rest } } := by
  have kept : ∀ x, x ∈ rest → x ∈ s.loop.jobs := by
    intro x mem
    rw [queued]
    exact List.mem_cons_of_mem j mem
  constructor
  · exact shape.gates_inside
  · exact shape.waiters_inside
  · exact shape.queued_gates
  · exact shape.outside
  · exact shape.own
  · intro c ks t o found mem
    obtain ⟨tg, waits⟩ := shape.waiting c ks t o found mem
    refine ⟨tg, waits.mono (fun f opened => ?_) id id⟩
    rw [queued] at opened
    rcases List.mem_cons.1 opened with first | later
    · subst first
      exact absurd found (spare ks)
    · exact later
  · intro t o r mem
    exact shape.passing t o r (kept _ mem)
  · intro t r mem
    exact shape.reporting t r (kept _ mem)
  · intro g f mem
    exact shape.opening g f (kept _ mem)
  · intro o t found
    rcases shape.passes o t found with waiting | ⟨r, passing⟩
    · exact Or.inl waiting
    · rw [queued] at passing
      rcases List.mem_cons.1 passing with first | later
      · subst first
        exact absurd found spare
      · exact Or.inr ⟨r, later⟩

/-- The pool may change under a shape as long as its queue keeps to the
script's gates and no idle waiter is added. -/
theorem Shape.pool {s : State α} (shape : Shape s) (p : WorkerPool Probe CellId)
    (queued : ∀ t ∈ p.queue, ∀ g, t.scripted = some g → g ∈ s.gates.map Prod.snd)
    (waiters : ∀ w ∈ p.idleWaiters, w ∈ s.pool.idleWaiters) : Shape { s with pool := p } := by
  constructor
  · exact shape.gates_inside
  · intro w mem
    exact shape.waiters_inside w (waiters w mem)
  · exact queued
  · intro c mem
    rw [List.mem_append] at mem
    rcases mem with gate | waiter
    · exact shape.outside c (List.mem_append_left _ gate)
    · exact shape.outside c (List.mem_append_right _ (waiters c waiter))
  · exact shape.own
  · intro c ks t o found mem
    obtain ⟨tg, waits⟩ := shape.waiting c ks t o found mem
    exact ⟨tg, waits.mono (fun f opened => opened) id
      fun notWaiter waiter => notWaiter (waiters c waiter)⟩
  · exact shape.passing
  · exact shape.reporting
  · exact shape.opening
  · exact shape.passes

/-! ## Changes that no task sees -/

/-- A cell that no task depends on: settled, missing, or waited on by idle
watchers only. -/
def Inert : Option (Cell Reaction Unit (Fault α)) → Prop
  | some (.pending ks) => ∀ k ∈ ks, ∃ id, k = .idleSeen id
  | _ => True

/-- From `s` to `s'` nothing changes that a task depends on: cells change
only where no task depends on them and no opening points, the queue grows by
jobs for idle watchers, and new gates and idle waiters are such cells. -/
structure Frame (s s' : State α) : Prop where
  keeps : s.loop.Keeps s'.loop
  size : s.loop.cells.size ≤ s'.loop.cells.size
  cells : ∀ x, s'.loop.cells[x]? = s.loop.cells[x]? ∨
    (Inert s.loop.cells[x]? ∧ Inert s'.loop.cells[x]? ∧ ∀ f, .task (.openGate x f) ∉ s.loop.jobs)
  jobs : ∃ more, s'.loop.jobs = s.loop.jobs ++ more ∧ ∀ j ∈ more, ∃ id o, j = .resume (.idleSeen id) o
  gates : ∀ c ∈ s'.gates.map Prod.snd, c ∈ s.gates.map Prod.snd ∨
    (Inert s.loop.cells[c]? ∧ (∀ f, .task (.openGate c f) ∉ s.loop.jobs) ∧ c < s'.loop.cells.size)
  waiters : ∀ w ∈ s'.pool.idleWaiters, w ∈ s.pool.idleWaiters ∨
    (Inert s.loop.cells[w]? ∧ w < s'.loop.cells.size)
  queue : ∀ t ∈ s'.pool.queue, ∀ g, t.scripted = some g → g ∈ s'.gates.map Prod.snd

theorem Inert.no_report {ks : List Reaction} (inert : Inert (some (.pending ks : Cell Reaction Unit (Fault α))))
    (t : Probe) : .taskSettled t ∉ ks := by
  intro mem
  obtain ⟨id, same⟩ := inert _ mem
  cases same

theorem Inert.no_pass {ks : List Reaction} (inert : Inert (some (.pending ks : Cell Reaction Unit (Fault α))))
    (t : Probe) (o : CellId) : .gatePassed t o ∉ ks := by
  intro mem
  obtain ⟨id, same⟩ := inert _ mem
  cases same

namespace Frame

variable {s s' : State α}

theorem same_of_pending (frame : Frame s s') {x : CellId} {ks : List Reaction}
    (found : s'.loop.cells[x]? = some (.pending ks))
    (busy : (∃ t, .taskSettled t ∈ ks) ∨ ∃ t o, .gatePassed t o ∈ ks) :
    s.loop.cells[x]? = some (.pending ks) := by
  rcases frame.cells x with same | ⟨_, inert, _⟩
  · rw [← same]
    exact found
  · rw [found] at inert
    rcases busy with ⟨t, mem⟩ | ⟨t, o, mem⟩
    · exact absurd mem (inert.no_report t)
    · exact absurd mem (inert.no_pass t o)

theorem target (frame : Frame s s') {t : Probe} {o : CellId} (target : PassTarget s.loop t o) :
    PassTarget s'.loop t o := by
  rcases target with own | ⟨r, settled⟩
  · rcases frame.cells o with same | ⟨inert, _, _⟩
    · exact Or.inl (same ▸ own)
    · rw [own] at inert
      exact absurd (List.mem_singleton_self _) (inert.no_report t)
  · exact Or.inr ⟨r, (Loop.outcome?_eq_some _).1
      (frame.keeps o r ((Loop.outcome?_eq_some _).2 settled))⟩

theorem jobs_mem (frame : Frame s s') {j : Job Reaction Unit (Fault α)} (mem : j ∈ s.loop.jobs) :
    j ∈ s'.loop.jobs := by
  obtain ⟨more, jobs, _⟩ := frame.jobs
  rw [jobs]
  exact List.mem_append_left _ mem

theorem jobs_cases (frame : Frame s s') {j : Job Reaction Unit (Fault α)} (mem : j ∈ s'.loop.jobs) :
    j ∈ s.loop.jobs ∨ ∃ id o, j = .resume (.idleSeen id) o := by
  obtain ⟨more, jobs, idle⟩ := frame.jobs
  rw [jobs, List.mem_append] at mem
  rcases mem with old | new
  · exact Or.inl old
  · exact Or.inr (idle j new)

end Frame

theorem Shape.frame {s s' : State α} (shape : Shape s) (frame : Frame s s') : Shape s' := by
  have busyGate : ∀ (c : CellId) (ks : List Reaction) (t : Probe) (o : CellId),
      s'.loop.cells[c]? = some (.pending ks) → .gatePassed t o ∈ ks →
        s.loop.cells[c]? = some (.pending ks) :=
    fun c ks t o found mem => frame.same_of_pending found (Or.inr ⟨t, o, mem⟩)
  constructor
  · intro c mem
    rcases frame.gates c mem with old | ⟨_, _, inside⟩
    · exact Nat.lt_of_lt_of_le (shape.gates_inside c old) frame.size
    · exact inside
  · intro w mem
    rcases frame.waiters w mem with old | ⟨_, inside⟩
    · exact Nat.lt_of_lt_of_le (shape.waiters_inside w old) frame.size
    · exact inside
  · exact frame.queue
  · intro c mem ks found t report
    have was := frame.same_of_pending found (Or.inl ⟨t, report⟩)
    rw [List.mem_append] at mem
    rcases mem with gate | waiter
    · rcases frame.gates c gate with old | ⟨inert, _, _⟩
      · exact shape.outside c (List.mem_append_left _ old) ks was t report
      · rw [was] at inert
        exact inert.no_report t report
    · rcases frame.waiters c waiter with old | ⟨inert, _⟩
      · exact shape.outside c (List.mem_append_right _ old) ks was t report
      · rw [was] at inert
        exact inert.no_report t report
  · intro c ks t found report
    exact shape.own c ks t (frame.same_of_pending found (Or.inl ⟨t, report⟩)) report
  · intro c ks t o found mem
    have was := busyGate c ks t o found mem
    obtain ⟨tg, waits⟩ := shape.waiting c ks t o was mem
    refine ⟨frame.target tg, waits.mono (fun f opened => frame.jobs_mem opened) ?_ ?_⟩
    · intro notGate gate
      rcases frame.gates c gate with old | ⟨inert, _, _⟩
      · exact notGate old
      · rw [was] at inert
        exact inert.no_pass t o mem
    · intro notWaiter waiter
      rcases frame.waiters c waiter with old | ⟨inert, _⟩
      · exact notWaiter old
      · rw [was] at inert
        exact inert.no_pass t o mem
  · intro t o r mem
    rcases frame.jobs_cases mem with old | ⟨id, _, same⟩
    · obtain ⟨tg, passed⟩ := shape.passing t o r old
      exact ⟨frame.target tg, Probe.passed_keeps frame.keeps t passed⟩
    · cases same
  · intro t r mem
    rcases frame.jobs_cases mem with old | ⟨id, _, same⟩
    · obtain ⟨passed, quiet⟩ := shape.reporting t r old
      exact ⟨Probe.passed_keeps frame.keeps t passed, quiet⟩
    · cases same
  · intro g f mem
    rcases frame.jobs_cases mem with old | ⟨id, _, same⟩
    · obtain ⟨inside, notGate, waiters⟩ := shape.opening g f old
      refine ⟨Nat.lt_of_lt_of_le inside frame.size, ?_, ?_⟩
      · intro gate
        rcases frame.gates g gate with was | ⟨_, closed, _⟩
        · exact notGate was
        · exact closed f old
      · intro ks found
        rcases frame.cells g with same | ⟨_, _, closed⟩
        · exact waiters ks (same ▸ found)
        · exact absurd old (closed f)
    · cases same
  · intro o t found
    have was := frame.same_of_pending found (Or.inl ⟨t, List.mem_singleton_self _⟩)
    rcases shape.passes o t was with ⟨c, ks, waiting, mem⟩ | ⟨r, queued⟩
    · refine Or.inl ⟨c, ks, ?_, mem⟩
      rcases frame.cells c with same | ⟨inert, _, _⟩
      · rw [same]
        exact waiting
      · rw [waiting] at inert
        exact absurd mem (inert.no_pass t o)
    · exact Or.inr ⟨r, frame.jobs_mem queued⟩

theorem Shape.new_gate {s : State α} (shape : Shape s) (id : String) :
    Shape { s with loop := s.loop.fresh.2, gates := (id, s.loop.fresh.1) :: s.gates } := by
  have unopened : ∀ f, .task (.openGate s.loop.cells.size f) ∉ s.loop.jobs :=
    fun f mem => Nat.lt_irrefl _ (shape.opening _ f mem).1
  refine shape.frame ⟨s.loop.keeps_fresh, by simp, fun x => ?_, ⟨[], by simp, by simp⟩,
    fun c mem => ?_, fun w mem => Or.inl mem, fun t mem g scripted => ?_⟩
  · by_cases new : x = s.loop.cells.size
    · subst new
      right
      simp [Inert, unopened]
    · left
      rw [Loop.getElem?_fresh, if_neg new]
  · simp only [List.map_cons, List.mem_cons, Loop.fresh_fst] at mem
    rcases mem with rfl | old
    · right
      simp [Inert, unopened]
    · exact Or.inl old
  · exact List.mem_cons_of_mem _ (shape.queued_gates t mem g scripted)

/-! ## Starting a task that waits -/

/-- A task that does not throw, set waiting on gate `c`: its own cell is made,
the task waits on the gate, and the pool waits on the own cell. -/
def waitOn (l : Loop Reaction Unit (Fault α)) (t : Probe) (c : CellId) :
    Loop Reaction Unit (Fault α) :=
  (l.fresh.2.onSettled c (.gatePassed t l.fresh.1)).onSettled l.fresh.1 (.taskSettled t)

/-- The gate a starting task waits on, with the loop once that gate exists:
the task's scripted gate, or a new gate whose opening is queued. -/
def gateFor (l : Loop Reaction Unit (Fault α)) (t : Probe) :
    CellId × Loop Reaction Unit (Fault α) :=
  match t.scripted with
  | some g => (g, l)
  | none => (l.fresh.1, l.fresh.2.defer (.openGate l.fresh.1 t.fails))

theorem launch_throws {F : Nat} {t : Probe} {s : State α} {m : String}
    (throws : t.mode = .syncThrow m) :
    launch (F + 1) t s =
      launch.afterTask F ((s.note (.started t.id)).note (.taskError (.error m))) := by
  simp [launch, throws]

theorem launch_waits {F : Nat} {t : Probe} {s : State α} (quiet : t.throws = false) :
    launch (F + 1) t s =
      { s.note (.started t.id) with
        loop := waitOn (gateFor s.loop t).2 t (gateFor s.loop t).1 } := by
  unfold Probe.throws at quiet
  cases mode : t.mode with
  | deferred =>
    cases gate : t.gate with
    | some g => simp [launch, mode, gate, waitOn, gateFor, Probe.scripted]
    | none => simp [launch, mode, gate, waitOn, gateFor, Probe.scripted, Probe.fails]
  | immediate => simp [launch, mode, waitOn, gateFor, Probe.scripted, Probe.fails]
  | immediateReject m => simp [launch, mode, waitOn, gateFor, Probe.scripted, Probe.fails]
  | syncThrow m => simp [mode] at quiet

/-- A gate a task may start waiting on: a waiting cell that is no own cell,
on which the task waits as it should and whose queued openings fail as the
task fails; or a settled gate that the task passes with its outcome. -/
def Gate (s : State α) (t : Probe) (c : CellId) : Prop :=
  (∃ ks : List Reaction, s.loop.cells[c]? = some (.pending ks) ∧ (∀ t', .taskSettled t' ∉ ks) ∧
      Waits s t c ∧ ∀ f, .task (.openGate c f) ∈ s.loop.jobs → t.scripted = none ∧ t.fails = f) ∨
    ∃ r, s.loop.cells[c]? = some (.settled r) ∧ t.passed s.loop = some r

theorem keeps_waitOn (l : Loop Reaction Unit (Fault α)) (t : Probe) (c : CellId) :
    l.Keeps (waitOn l t c) :=
  ((l.keeps_fresh.trans (Loop.keeps_onSettled _ c _)).trans (Loop.keeps_onSettled _ _ _))

theorem size_waitOn (l : Loop Reaction Unit (Fault α)) (t : Probe) (c : CellId) :
    (waitOn l t c).cells.size = l.cells.size + 1 := by
  simp [waitOn]

section WaitOn

variable {l : Loop Reaction Unit (Fault α)} {t : Probe} {c : CellId}

theorem inside_of_some {x : CellId} {cell : Cell Reaction Unit (Fault α)}
    (found : l.cells[x]? = some cell) : x < l.cells.size := by
  by_contra outside
  rw [Array.getElem?_eq_none (Nat.le_of_not_lt outside)] at found
  cases found

theorem waitOn_of_pending {ks : List Reaction} (pending : l.cells[c]? = some (.pending ks)) :
    (∀ x, (waitOn l t c).cells[x]? =
      if l.cells.size = x then some (.pending [.taskSettled t])
      else if c = x then some (.pending (ks ++ [.gatePassed t l.cells.size]))
      else l.cells[x]?) ∧ (waitOn l t c).jobs = l.jobs := by
  have inside := inside_of_some pending
  have atGate : l.fresh.2.cells[c]? = some (.pending ks) := by
    rw [Loop.getElem?_fresh, if_neg (Nat.ne_of_lt inside)]
    exact pending
  have atOwn : (l.fresh.2.onSettled c (.gatePassed t l.cells.size)).cells[l.cells.size]? =
      some (.pending []) := by
    rw [Loop.getElem?_onSettled _ atGate, if_neg (Nat.ne_of_lt inside), Loop.getElem?_fresh,
      if_pos rfl]
  unfold waitOn
  refine ⟨fun x => ?_, ?_⟩
  · rw [Loop.fresh_fst, Loop.getElem?_onSettled _ atOwn, Loop.getElem?_onSettled _ atGate,
      Loop.getElem?_fresh]
    by_cases own : l.cells.size = x
    · simp [own]
    · by_cases same : c = x
      · subst same
        simp [own]
      · simp [own, same, Ne.symm own]
  · rw [Loop.fresh_fst, Loop.onSettled_of_pending _ atOwn, Loop.onSettled_of_pending _ atGate]
    rfl

theorem waitOn_of_settled {r : Outcome Unit (Fault α)} (settled : l.cells[c]? = some (.settled r)) :
    (∀ x, (waitOn l t c).cells[x]? =
      if l.cells.size = x then some (.pending [.taskSettled t]) else l.cells[x]?) ∧
    (waitOn l t c).jobs = l.jobs ++ [.resume (.gatePassed t l.cells.size) r] := by
  have inside := inside_of_some settled
  have atGate : l.fresh.2.cells[c]? = some (.settled r) := by
    rw [Loop.getElem?_fresh, if_neg (Nat.ne_of_lt inside)]
    exact settled
  have moved := Loop.onSettled_of_settled l.fresh.2 atGate (.gatePassed t l.cells.size)
  have atOwn : (l.fresh.2.onSettled c (.gatePassed t l.cells.size)).cells[l.cells.size]? =
      some (.pending []) := by
    rw [moved]
    simp
  unfold waitOn
  refine ⟨fun x => ?_, ?_⟩
  · rw [Loop.fresh_fst, Loop.getElem?_onSettled _ atOwn, moved]
    by_cases own : l.cells.size = x
    · simp [own]
    · simp [own, Array.getElem?_push, Ne.symm own]
  · rw [Loop.fresh_fst, Loop.onSettled_of_pending _ atOwn, moved]
    rfl

/-- A cell a task passes to exists. -/
theorem PassTarget.inside {t' : Probe} {p : CellId} (target : PassTarget l t' p) : p < l.cells.size := by
  rcases target with own | ⟨r, settled⟩
  · exact inside_of_some own
  · exact inside_of_some settled

theorem PassTarget.ne_gate {t' : Probe} {p : CellId} (target : PassTarget l t' p) {ks : List Reaction}
    (pending : l.cells[c]? = some (.pending ks)) (unreported : ∀ t'', .taskSettled t'' ∉ ks) : c ≠ p := by
  rintro rfl
  rcases target with own | ⟨r, settled⟩
  · rw [pending] at own
    cases own
    exact unreported t' (List.mem_singleton_self _)
  · rw [pending] at settled
    cases settled

end WaitOn

theorem Shape.attach_pending {s : State α} (shape : Shape s) {t : Probe} {c : CellId}
    (quiet : t.throws = false) {ks : List Reaction} (pending : s.loop.cells[c]? = some (.pending ks))
    (unreported : ∀ t', .taskSettled t' ∉ ks) (waits : Waits s t c)
    (openings : ∀ f, .task (.openGate c f) ∈ s.loop.jobs → t.scripted = none ∧ t.fails = f) :
    Shape { s with loop := waitOn s.loop t c } := by
  have keeps := keeps_waitOn s.loop t c
  have size := size_waitOn s.loop t c
  obtain ⟨cells, jobs⟩ := waitOn_of_pending (t := t) pending
  have target : ∀ t' p, PassTarget s.loop t' p → PassTarget (waitOn s.loop t c) t' p := by
    intro t' p was
    refine was.keeps ?_
    rw [cells p, if_neg (Nat.ne_of_gt was.inside), if_neg (was.ne_gate pending unreported)]
  have kinds : ∀ x ks', (waitOn s.loop t c).cells[x]? = some (.pending ks') →
      (x = s.loop.cells.size ∧ ks' = [.taskSettled t]) ∨
      (x = c ∧ ks' = ks ++ [.gatePassed t s.loop.cells.size]) ∨
      (x < s.loop.cells.size ∧ c ≠ x ∧ s.loop.cells[x]? = some (.pending ks')) := by
    intro x ks' found
    rw [cells x] at found
    split_ifs at found with own same
    · cases found
      exact Or.inl ⟨own.symm, rfl⟩
    · cases found
      exact Or.inr (Or.inl ⟨same.symm, rfl⟩)
    · exact Or.inr (Or.inr ⟨inside_of_some found, same, found⟩)
  have waitsAfter : ∀ t' x, Waits s t' x → Waits { s with loop := waitOn s.loop t c } t' x :=
    fun t' x was => was.mono (fun f opened => by rw [jobs]; exact opened) id id
  constructor
  · intro x mem
    rw [size]
    exact Nat.lt_succ_of_lt (shape.gates_inside x mem)
  · intro w mem
    rw [size]
    exact Nat.lt_succ_of_lt (shape.waiters_inside w mem)
  · exact shape.queued_gates
  · intro x mem ks' found t' report
    rcases kinds x ks' found with ⟨rfl, _⟩ | ⟨rfl, rfl⟩ | ⟨_, _, was⟩
    · rw [List.mem_append] at mem
      have inside := mem.elim (shape.gates_inside _) (shape.waiters_inside _)
      exact Nat.lt_irrefl _ inside
    · rcases List.mem_append.1 report with old | new
      · exact unreported t' old
      · simp at new
    · exact shape.outside x mem ks' was t' report
  · intro x ks' t' found report
    rcases kinds x ks' found with ⟨_, rfl⟩ | ⟨_, rfl⟩ | ⟨_, _, was⟩
    · simp only [List.mem_singleton, Reaction.taskSettled.injEq] at report
      subst report
      exact ⟨rfl, quiet⟩
    · rcases List.mem_append.1 report with old | new
      · exact absurd old (unreported t')
      · simp at new
    · exact shape.own x ks' t' was report
  · intro x ks' t' p found mem
    rcases kinds x ks' found with ⟨_, rfl⟩ | ⟨rfl, rfl⟩ | ⟨_, _, was⟩
    · simp at mem
    · rcases List.mem_append.1 mem with old | new
      · obtain ⟨tg, waits'⟩ := shape.waiting x ks t' p pending old
        exact ⟨target t' p tg, waitsAfter t' x waits'⟩
      · simp only [List.mem_singleton, Reaction.gatePassed.injEq] at new
        obtain ⟨sameTask, sameOwn⟩ := new
        rw [sameTask, sameOwn]
        exact ⟨Or.inl (by rw [cells, if_pos rfl]), waitsAfter t x waits⟩
    · obtain ⟨tg, waits'⟩ := shape.waiting x ks' t' p was mem
      exact ⟨target t' p tg, waitsAfter t' x waits'⟩
  · intro t' p r mem
    rw [jobs] at mem
    obtain ⟨tg, passed⟩ := shape.passing t' p r mem
    exact ⟨target t' p tg, Probe.passed_keeps keeps t' passed⟩
  · intro t' r mem
    rw [jobs] at mem
    obtain ⟨passed, quiet'⟩ := shape.reporting t' r mem
    exact ⟨Probe.passed_keeps keeps t' passed, quiet'⟩
  · intro g f mem
    rw [jobs] at mem
    obtain ⟨inside, notGate, waiters⟩ := shape.opening g f mem
    refine ⟨by rw [size]; exact Nat.lt_succ_of_lt inside, notGate, ?_⟩
    intro ks' found k kmem
    rcases kinds g ks' found with ⟨rfl, _⟩ | ⟨rfl, rfl⟩ | ⟨_, _, was⟩
    · exact absurd inside (Nat.lt_irrefl _)
    · rcases List.mem_append.1 kmem with old | new
      · exact waiters ks pending k old
      · simp only [List.mem_singleton] at new
        obtain ⟨scripted, fails⟩ := openings f mem
        exact ⟨t, _, new, scripted, fails⟩
    · exact waiters ks' was k kmem
  · intro p t' found
    rcases kinds p _ found with ⟨rfl, same⟩ | ⟨rfl, same⟩ | ⟨_, _, was⟩
    · simp only [List.cons.injEq, Reaction.taskSettled.injEq, and_true] at same
      subst same
      exact Or.inl ⟨c, _, by rw [cells c, if_neg (Nat.ne_of_gt (inside_of_some pending)),
        if_pos rfl], List.mem_append_right _ (List.mem_singleton_self _)⟩
    · have last := congrArg List.getLast? same
      simp at last
    · rcases shape.passes p t' was with ⟨x, ks', waiting, mem⟩ | ⟨r, queued⟩
      · by_cases gateCell : c = x
        · subst gateCell
          rw [pending] at waiting
          cases waiting
          exact Or.inl ⟨c, _, by rw [cells c, if_neg (Nat.ne_of_gt (inside_of_some pending)),
            if_pos rfl], List.mem_append_left _ mem⟩
        · refine Or.inl ⟨x, ks', ?_, mem⟩
          rw [cells x, if_neg (Nat.ne_of_gt (inside_of_some waiting)), if_neg gateCell]
          exact waiting
      · exact Or.inr ⟨r, by rw [jobs]; exact queued⟩

theorem Shape.attach_settled {s : State α} (shape : Shape s) {t : Probe} {c : CellId}
    (quiet : t.throws = false) {r : Outcome Unit (Fault α)} (settled : s.loop.cells[c]? = some (.settled r))
    (passed : t.passed s.loop = some r) :
    Shape { s with loop := waitOn s.loop t c } := by
  have keeps := keeps_waitOn s.loop t c
  have size := size_waitOn s.loop t c
  obtain ⟨cells, jobs⟩ := waitOn_of_settled (t := t) settled
  have target : ∀ t' p, PassTarget s.loop t' p → PassTarget (waitOn s.loop t c) t' p := by
    intro t' p was
    refine was.keeps ?_
    rw [cells p, if_neg (Nat.ne_of_gt was.inside)]
  have kinds : ∀ x ks', (waitOn s.loop t c).cells[x]? = some (.pending ks') →
      (x = s.loop.cells.size ∧ ks' = [.taskSettled t]) ∨
      (x < s.loop.cells.size ∧ s.loop.cells[x]? = some (.pending ks')) := by
    intro x ks' found
    rw [cells x] at found
    split_ifs at found with own
    · cases found
      exact Or.inl ⟨own.symm, rfl⟩
    · exact Or.inr ⟨inside_of_some found, found⟩
  have waitsAfter : ∀ t' x, Waits s t' x → Waits { s with loop := waitOn s.loop t c } t' x :=
    fun t' x was => was.mono (fun f opened => by rw [jobs]; exact List.mem_append_left _ opened)
      id id
  constructor
  · intro x mem
    rw [size]
    exact Nat.lt_succ_of_lt (shape.gates_inside x mem)
  · intro w mem
    rw [size]
    exact Nat.lt_succ_of_lt (shape.waiters_inside w mem)
  · exact shape.queued_gates
  · intro x mem ks' found t' report
    rcases kinds x ks' found with ⟨rfl, _⟩ | ⟨_, was⟩
    · rw [List.mem_append] at mem
      have inside := mem.elim (shape.gates_inside _) (shape.waiters_inside _)
      exact Nat.lt_irrefl _ inside
    · exact shape.outside x mem ks' was t' report
  · intro x ks' t' found report
    rcases kinds x ks' found with ⟨_, rfl⟩ | ⟨_, was⟩
    · simp only [List.mem_singleton, Reaction.taskSettled.injEq] at report
      subst report
      exact ⟨rfl, quiet⟩
    · exact shape.own x ks' t' was report
  · intro x ks' t' p found mem
    rcases kinds x ks' found with ⟨_, rfl⟩ | ⟨_, was⟩
    · simp at mem
    · obtain ⟨tg, waits'⟩ := shape.waiting x ks' t' p was mem
      exact ⟨target t' p tg, waitsAfter t' x waits'⟩
  · intro t' p r' mem
    rw [jobs, List.mem_append] at mem
    rcases mem with old | new
    · obtain ⟨tg, passed'⟩ := shape.passing t' p r' old
      exact ⟨target t' p tg, Probe.passed_keeps keeps t' passed'⟩
    · simp only [List.mem_singleton, Job.resume.injEq, Reaction.gatePassed.injEq] at new
      obtain ⟨⟨sameTask, sameOwn⟩, sameOutcome⟩ := new
      rw [sameTask, sameOwn, sameOutcome]
      exact ⟨Or.inl (by rw [cells, if_pos rfl]), Probe.passed_keeps keeps t passed⟩
  · intro t' r' mem
    rw [jobs, List.mem_append] at mem
    rcases mem with old | new
    · obtain ⟨passed', quiet'⟩ := shape.reporting t' r' old
      exact ⟨Probe.passed_keeps keeps t' passed', quiet'⟩
    · simp at new
  · intro g f mem
    rw [jobs, List.mem_append] at mem
    rcases mem with old | new
    · obtain ⟨inside, notGate, waiters⟩ := shape.opening g f old
      refine ⟨by rw [size]; exact Nat.lt_succ_of_lt inside, notGate, ?_⟩
      intro ks' found
      rcases kinds g ks' found with ⟨rfl, _⟩ | ⟨_, was⟩
      · exact absurd inside (Nat.lt_irrefl _)
      · exact waiters ks' was
    · simp at new
  · intro p t' found
    rcases kinds p _ found with ⟨rfl, same⟩ | ⟨_, was⟩
    · simp only [List.cons.injEq, Reaction.taskSettled.injEq, and_true] at same
      subst same
      exact Or.inr ⟨r, by rw [jobs]; exact List.mem_append_right _ (List.mem_singleton_self _)⟩
    · rcases shape.passes p t' was with ⟨x, ks', waiting, mem⟩ | ⟨r', queued⟩
      · refine Or.inl ⟨x, ks', ?_, mem⟩
        rw [cells x, if_neg (Nat.ne_of_gt (inside_of_some waiting))]
        exact waiting
      · exact Or.inr ⟨r', by rw [jobs]; exact List.mem_append_left _ queued⟩

/-- A task waits on its gate, whether the gate still waits or has settled. -/
theorem Shape.attach {s : State α} (shape : Shape s) {t : Probe} {c : CellId}
    (quiet : t.throws = false) (gate : Gate s t c) :
    Shape { s with loop := waitOn s.loop t c } := by
  rcases gate with ⟨ks, pending, unreported, waits, openings⟩ | ⟨r, settled, passed⟩
  · exact shape.attach_pending quiet pending unreported waits openings
  · exact shape.attach_settled quiet settled passed

theorem Shape.new_opening {s : State α} (shape : Shape s) (f : Option String) :
    Shape { s with loop := s.loop.fresh.2.defer (.openGate s.loop.fresh.1 f) } := by
  have unopened : ∀ f, .task (.openGate s.loop.cells.size f) ∉ s.loop.jobs :=
    fun f mem => Nat.lt_irrefl _ (shape.opening _ f mem).1
  have fresh : Shape { s with loop := s.loop.fresh.2 } := by
    refine shape.frame ⟨s.loop.keeps_fresh, by simp, fun x => ?_, ⟨[], by simp, by simp⟩,
      fun c mem => Or.inl mem, fun w mem => Or.inl mem, shape.queued_gates⟩
    by_cases new : x = s.loop.cells.size
    · subst new
      right
      simp [Inert, unopened]
    · left
      rw [Loop.getElem?_fresh, if_neg new]
  have jobs : ∀ j, j ∈ (s.loop.fresh.2.defer (.openGate s.loop.fresh.1 f)).jobs ↔
      j ∈ s.loop.jobs ∨ j = .task (.openGate s.loop.cells.size f) := by
    intro j
    simp
  obtain ⟨gates_inside, waiters_inside, queued_gates, outside, own, waiting, passing, reporting,
    opening, passes⟩ := fresh
  refine ⟨gates_inside, waiters_inside, queued_gates, outside, own, ?_, ?_, ?_, ?_, ?_⟩
  · intro c ks t o found mem
    obtain ⟨tg, waits⟩ := waiting c ks t o found mem
    exact ⟨tg, waits.mono (fun f opened => (jobs _).2 (Or.inl opened)) id id⟩
  · intro t o r mem
    rcases (jobs _).1 mem with old | new
    · exact passing t o r old
    · cases new
  · intro t r mem
    rcases (jobs _).1 mem with old | new
    · exact reporting t r old
    · cases new
  · intro g f' mem
    rcases (jobs _).1 mem with old | new
    · exact opening g f' old
    · simp only [Job.task.injEq, Reaction.openGate.injEq] at new
      obtain ⟨rfl, rfl⟩ := new
      refine ⟨by simp, fun gate => Nat.lt_irrefl _ (shape.gates_inside _ gate), ?_⟩
      intro ks found k mem
      simp at found
      subst found
      cases mem
  · intro o t found
    rcases passes o t found with waiting | ⟨r, queued⟩
    · exact Or.inl waiting
    · exact Or.inr ⟨r, (jobs _).2 (Or.inl queued)⟩

theorem Shape.gate_for {s : State α} (shape : Shape s) {t : Probe} (quiet : t.throws = false)
    (queued : ∀ g, t.scripted = some g → g ∈ s.gates.map Prod.snd) :
    Shape { s with loop := (gateFor s.loop t).2 } ∧
      Gate { s with loop := (gateFor s.loop t).2 } t (gateFor s.loop t).1 := by
  unfold gateFor
  split
  · next g scripted =>
    refine ⟨by cases shape; constructor <;> assumption, ?_⟩
    have gate := queued g scripted
    have inside := shape.gates_inside g gate
    cases cell : s.loop.cells[g] with
    | pending ks =>
      have found : s.loop.cells[g]? = some (.pending ks) := by
        rw [Array.getElem?_eq_getElem inside, cell]
      refine Or.inl ⟨ks, found, shape.outside g (List.mem_append_left _ gate) ks found, ?_, ?_⟩
      · show Waits s t g
        unfold Waits
        rw [scripted]
      · intro f opened
        exact absurd gate (shape.opening g f opened).2.1
    | settled r =>
      have found : s.loop.cells[g]? = some (.settled r) := by
        rw [Array.getElem?_eq_getElem inside, cell]
      refine Or.inr ⟨r, found, ?_⟩
      show t.passed s.loop = some r
      unfold Probe.passed
      rw [scripted]
      exact (Loop.outcome?_eq_some _).2 found
  · next scripted =>
    refine ⟨shape.new_opening t.fails, Or.inl ⟨[], by simp, by simp, ?_, ?_⟩⟩
    · show Waits _ t _
      unfold Waits
      rw [scripted]
      refine ⟨quiet, by simp, fun gate => ?_, fun waiter => ?_⟩
      · exact Nat.lt_irrefl _ (shape.gates_inside _ gate)
      · exact Nat.lt_irrefl _ (shape.waiters_inside _ waiter)
    · intro f opened
      simp only [Loop.defer_jobs, Loop.fresh_jobs, Loop.fresh_fst, List.mem_append,
        List.mem_singleton, Job.task.injEq, Reaction.openGate.injEq, true_and] at opened
      rcases opened with old | new
      · exact absurd (shape.opening _ f old).1 (Nat.lt_irrefl _)
      · exact ⟨scripted, new.symm⟩

theorem Shape.launch_quiet {s : State α} (shape : Shape s) {t : Probe} (quiet : t.throws = false)
    (queued : ∀ g, t.scripted = some g → g ∈ s.gates.map Prod.snd) (F : Nat) :
    Shape (launch (F + 1) t s) := by
  rw [launch_waits quiet]
  obtain ⟨ready, gate⟩ := (shape.note (.started t.id)).gate_for quiet queued
  exact ready.attach quiet gate

/-! ## Watching for the pool to become idle -/

/-- Watching for the pool to become idle changes nothing a task depends on:
the watcher's cell is new, only the watcher waits on it, and an idle pool
settles it at once. -/
theorem Shape.watch_idle {s : State α} (shape : Shape s) (id : String) :
    Shape (apply s (.onIdle id)).1 := by
  have unopened : ∀ f, .task (.openGate s.loop.cells.size f) ∉ s.loop.jobs :=
    fun f mem => Nat.lt_irrefl _ (shape.opening _ f mem).1
  have atNew : s.loop.fresh.2.cells[s.loop.cells.size]? = some (.pending []) := by simp
  have old : ∀ x, x ≠ s.loop.cells.size → s.loop.fresh.2.cells[x]? = s.loop.cells[x]? :=
    fun x other => by rw [Loop.getElem?_fresh, if_neg other]
  by_cases idle : s.pool.running = 0 ∧ s.pool.queue.isEmpty = true
  · have settled := Loop.getElem?_settle _ atNew (o := .fulfilled ())
    have atSettled : (s.loop.fresh.2.settle s.loop.cells.size (.fulfilled ())).cells[
        s.loop.cells.size]? = some (.settled (.fulfilled ())) := by
      rw [settled, if_pos rfl]
    simp only [apply, WorkerPool.onIdle, idle, and_self, if_true, Loop.fresh_fst,
      Loop.onSettled_of_settled _ atSettled]
    refine shape.frame ⟨?_, ?_, fun x => ?_, ⟨[.resume (.idleSeen id) (.fulfilled ())], ?_, ?_⟩,
      fun c mem => Or.inl mem, fun w mem => Or.inl mem, shape.queued_gates⟩
    · exact (s.loop.keeps_fresh.trans (Loop.keeps_settle _ _ _)).trans (Loop.Keeps.of_cells rfl)
    · simp [Loop.settle_of_pending _ atNew]
    · by_cases new : x = s.loop.cells.size
      · subst new
        right
        simp only [atSettled]
        simp [Inert, unopened]
      · left
        simp only
        rw [settled, if_neg (Ne.symm new), old x new]
    · simp [Loop.settle_of_pending _ atNew]
    · simp
  · simp only [apply, WorkerPool.onIdle, idle, if_false, Bool.false_eq_true, Loop.fresh_fst]
    have cells := Loop.getElem?_onSettled _ atNew (k := .idleSeen id)
    have same := Loop.onSettled_of_pending _ atNew (.idleSeen id)
    refine shape.frame ⟨?_, ?_, fun x => ?_, ⟨[], by simp [same], by simp⟩,
      fun c mem => Or.inl mem, fun w mem => ?_, shape.queued_gates⟩
    · exact s.loop.keeps_fresh.trans (Loop.keeps_onSettled _ _ _)
    · simp [same]
    · by_cases new : x = s.loop.cells.size
      · subst new
        right
        rw [cells, if_pos rfl]
        simp [Inert, unopened]
      · left
        rw [cells, if_neg (Ne.symm new), old x new]
    · simp only [List.mem_append, List.mem_singleton] at mem
      rcases mem with waiter | rfl
      · exact Or.inl waiter
      · right
        simp [Inert, same]

end Pool
end Session
end HttpStub
