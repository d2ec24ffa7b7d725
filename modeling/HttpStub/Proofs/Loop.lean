import HttpStub.Async.Loop
import Mathlib.Data.List.Perm.Basic
import Mathlib.Data.List.Flatten

namespace HttpStub
namespace Async
namespace Loop

/-!
# What a loop keeps and what it owes

Two facts about cells carry every argument about code that waits on them.
A settled cell keeps its outcome: no operation of a loop unsettles a cell or
changes how it settled.  And a reaction is never lost or copied: settling a
cell moves its reactions to the job queue, attaching one adds it to a cell or
to the queue, and running a job takes it off.  The second fact is stated
through `owed`, which follows every reaction wherever it waits, so that a
count of outstanding work is unchanged by a settle and moves by one with an
attach or a job run.
-/

variable {κ υ ε β : Type} (l : Loop κ υ ε)

section Operations

variable {c : CellId} {k : κ} {o : Outcome υ ε} {ks : List κ}

@[simp] theorem fresh_fst : l.fresh.1 = l.cells.size := rfl
@[simp] theorem fresh_cells : l.fresh.2.cells = l.cells.push (.pending []) := rfl
@[simp] theorem fresh_jobs : l.fresh.2.jobs = l.jobs := rfl
@[simp] theorem defer_cells : (l.defer k).cells = l.cells := rfl
@[simp] theorem defer_jobs : (l.defer k).jobs = l.jobs ++ [.task k] := rfl

theorem settle_of_pending (pending : l.cells[c]? = some (.pending ks)) (o : Outcome υ ε) :
    l.settle c o = { l with cells := l.cells.modify c (fun _ => .settled o),
                            jobs := l.jobs ++ ks.map (Job.resume · o) } := by
  simp [settle, pending]

theorem settle_of_not_pending (settled : ∀ ks, l.cells[c]? ≠ some (.pending ks))
    (o : Outcome υ ε) : l.settle c o = l := by
  unfold settle
  split
  · next ks found => exact absurd found (settled ks)
  · rfl

theorem onSettled_of_pending (pending : l.cells[c]? = some (.pending ks)) (k : κ) :
    l.onSettled c k = { l with cells := l.cells.modify c (fun _ => .pending (ks ++ [k])) } := by
  simp [onSettled, pending]

theorem cells_onSettled_of_not_pending (waits : ∀ ks, l.cells[c]? ≠ some (.pending ks)) (k : κ) :
    (l.onSettled c k).cells = l.cells := by
  unfold onSettled
  split
  · next ks found => exact absurd found (waits ks)
  · rfl
  · rfl

theorem onSettled_of_settled (settled : l.cells[c]? = some (.settled o)) (k : κ) :
    l.onSettled c k = { l with jobs := l.jobs ++ [.resume k o] } := by
  simp [onSettled, settled]

theorem next_of_cons {j : Job κ υ ε} {rest : List (Job κ υ ε)} (queued : l.jobs = j :: rest) :
    l.next? = some (j, { l with jobs := rest }) := by
  simp [next?, queued]

theorem getElem?_settle (pending : l.cells[c]? = some (.pending ks)) (x : CellId) :
    (l.settle c o).cells[x]? = if c = x then some (.settled o) else l.cells[x]? := by
  rw [settle_of_pending l pending, Array.getElem?_modify]
  split
  · next same => subst same; simp [pending]
  · rfl

theorem getElem?_onSettled (pending : l.cells[c]? = some (.pending ks)) (x : CellId) :
    (l.onSettled c k).cells[x]? = if c = x then some (.pending (ks ++ [k])) else l.cells[x]? := by
  rw [onSettled_of_pending l pending, Array.getElem?_modify]
  split
  · next same => subst same; simp [pending]
  · rfl

theorem getElem?_fresh (x : CellId) :
    l.fresh.2.cells[x]? = if x = l.cells.size then some (.pending []) else l.cells[x]? := by
  simp [Array.getElem?_push]

end Operations

/-! ## What an attach changes

Attaching a reaction to a cell adds it to the cell if the cell waits, queues
it if the cell settled, and changes nothing else. -/

section Attach

variable {c x : CellId} {k : κ}

theorem pending_onSettled {ks : List κ} (pending : l.cells[x]? = some (.pending ks)) (c : CellId) (k : κ) :
    ∃ ks', (l.onSettled c k).cells[x]? = some (.pending ks') ∧ ks ⊆ ks' := by
  by_cases waits : ∃ ks₀, l.cells[c]? = some (.pending ks₀)
  · obtain ⟨ks₀, found⟩ := waits
    rw [getElem?_onSettled l found]
    split
    · next same =>
      subst same
      rw [found] at pending
      cases pending
      exact ⟨_, rfl, List.subset_append_left _ _⟩
    · exact ⟨ks, pending, fun _ mem => mem⟩
  · rw [cells_onSettled_of_not_pending l (fun ks₀ found => waits ⟨ks₀, found⟩)]
    exact ⟨ks, pending, fun _ mem => mem⟩

/-- A cell that waits after an attach waited before, on all it waits on now
but the reaction attached to it. -/
theorem pending_of_onSettled {ks' : List κ} (pending : (l.onSettled c k).cells[x]? = some (.pending ks')) :
    ∃ ks, l.cells[x]? = some (.pending ks) ∧ ∀ k' ∈ ks', k' ∈ ks ∨ (x = c ∧ k' = k) := by
  by_cases waits : ∃ ks₀, l.cells[c]? = some (.pending ks₀)
  · obtain ⟨ks₀, found⟩ := waits
    rw [getElem?_onSettled l found] at pending
    split at pending
    · next same =>
      subst same
      cases pending
      refine ⟨ks₀, found, fun k' mem => ?_⟩
      rcases List.mem_append.1 mem with old | new
      · exact Or.inl old
      · exact Or.inr ⟨rfl, List.mem_singleton.1 new⟩
    · exact ⟨ks', pending, fun _ mem => Or.inl mem⟩
  · rw [cells_onSettled_of_not_pending l (fun ks₀ found => waits ⟨ks₀, found⟩)] at pending
    exact ⟨ks', pending, fun _ mem => Or.inl mem⟩

theorem settled_of_onSettled {o : Outcome υ ε} (settled : (l.onSettled c k).cells[x]? = some (.settled o)) :
    l.cells[x]? = some (.settled o) := by
  by_cases waits : ∃ ks₀, l.cells[c]? = some (.pending ks₀)
  · obtain ⟨ks₀, found⟩ := waits
    rw [getElem?_onSettled l found] at settled
    split at settled
    · cases settled
    · exact settled
  · rwa [cells_onSettled_of_not_pending l (fun ks₀ found => waits ⟨ks₀, found⟩)] at settled

theorem jobs_onSettled (c : CellId) (k : κ) :
    ∃ more, (l.onSettled c k).jobs = l.jobs ++ more ∧
      ∀ j ∈ more, ∃ o, l.cells[c]? = some (.settled o) ∧ j = .resume k o := by
  cases found : l.cells[c]? with
  | none => exact ⟨[], by simp [onSettled, found], by simp⟩
  | some cell =>
    cases cell with
    | pending ks => exact ⟨[], by simp [onSettled_of_pending l found], by simp⟩
    | settled o => exact ⟨[.resume k o], onSettled_of_settled l found k ▸ rfl, by simp⟩

end Attach

/-! ## Settled cells stay settled -/

/-- `l'` keeps every outcome `l` has. -/
def Keeps (l l' : Loop κ υ ε) : Prop :=
  ∀ c o, l.outcome? c = some o → l'.outcome? c = some o

namespace Keeps

variable {l} {l' l'' : Loop κ υ ε}

theorem refl : Keeps l l := fun _ _ kept => kept

theorem trans (first : Keeps l l') (second : Keeps l' l'') : Keeps l l'' :=
  fun c o kept => second c o (first c o kept)

theorem of_cells (same : l'.cells = l.cells) : Keeps l l' := by
  intro c o kept
  simpa [outcome?, same] using kept

end Keeps

theorem outcome?_eq_some {c : CellId} {o : Outcome υ ε} :
    l.outcome? c = some o ↔ l.cells[c]? = some (.settled o) := by
  unfold outcome?
  split <;> simp_all

theorem keeps_settle (c : CellId) (o : Outcome υ ε) : Keeps l (l.settle c o) := by
  intro x r kept
  rw [outcome?_eq_some] at kept ⊢
  by_cases pending : ∃ ks, l.cells[c]? = some (.pending ks)
  · obtain ⟨ks, pending⟩ := pending
    rw [getElem?_settle l pending]
    have other : c ≠ x := by
      rintro rfl
      rw [pending] at kept
      cases kept
    simpa [other] using kept
  · rw [settle_of_not_pending l (fun ks found => pending ⟨ks, found⟩)]
    exact kept

theorem keeps_onSettled (c : CellId) (k : κ) : Keeps l (l.onSettled c k) := by
  intro x r kept
  rw [outcome?_eq_some] at kept ⊢
  unfold onSettled
  split
  · next ks pending =>
    rw [Array.getElem?_modify]
    have other : c ≠ x := by
      rintro rfl
      rw [pending] at kept
      cases kept
    simpa [other] using kept
  · exact kept
  · exact kept

theorem keeps_fresh : Keeps l l.fresh.2 := by
  intro x r kept
  rw [outcome?_eq_some] at kept ⊢
  have inside : x < l.cells.size := by
    by_contra outside
    rw [Array.getElem?_eq_none (Nat.le_of_not_lt outside)] at kept
    cases kept
  rw [getElem?_fresh, if_neg (Nat.ne_of_lt inside)]
  exact kept

/-- Settling a cell commutes with taking the first job off the queue: the
settle appends its jobs at the end. -/
theorem settle_tail {j : Job κ υ ε} {rest : List (Job κ υ ε)} (queued : l.jobs = j :: rest)
    (c : CellId) (o : Outcome υ ε) :
    ({ l with jobs := rest } : Loop κ υ ε).settle c o =
      { l.settle c o with jobs := (l.settle c o).jobs.tail } := by
  by_cases pending : ∃ ks, l.cells[c]? = some (.pending ks)
  · obtain ⟨ks, pending⟩ := pending
    rw [settle_of_pending _ (by exact pending), settle_of_pending l pending]
    simp [queued]
  · have unchanged : ∀ ks, l.cells[c]? ≠ some (.pending ks) := fun ks found => pending ⟨ks, found⟩
    rw [settle_of_not_pending _ (by exact unchanged), settle_of_not_pending l unchanged]
    simp [queued]

theorem settle_not_pending (c : CellId) (o : Outcome υ ε) (ks : List κ) :
    (l.settle c o).cells[c]? ≠ some (.pending ks) := by
  by_cases pending : ∃ ks', l.cells[c]? = some (.pending ks')
  · obtain ⟨ks', pending⟩ := pending
    rw [getElem?_settle l pending, if_pos rfl]
    simp
  · rw [settle_of_not_pending l (fun ks' found => pending ⟨ks', found⟩)]
    exact fun found => pending ⟨ks, found⟩

theorem jobs_settle (c : CellId) (o : Outcome υ ε) : ∃ more, (l.settle c o).jobs = l.jobs ++ more := by
  by_cases pending : ∃ ks, l.cells[c]? = some (.pending ks)
  · obtain ⟨ks, pending⟩ := pending
    exact ⟨ks.map (Job.resume · o), by rw [settle_of_pending l pending]⟩
  · exact ⟨[], by rw [settle_of_not_pending l (fun ks found => pending ⟨ks, found⟩), List.append_nil]⟩

theorem settle_jobs_cons {j : Job κ υ ε} {rest : List (Job κ υ ε)} (queued : l.jobs = j :: rest)
    (c : CellId) (o : Outcome υ ε) : (l.settle c o).jobs = j :: (l.settle c o).jobs.tail := by
  obtain ⟨more, jobs⟩ := jobs_settle l c o
  rw [jobs, queued]
  rfl

@[simp] theorem size_settle (c : CellId) (o : Outcome υ ε) : (l.settle c o).cells.size = l.cells.size := by
  unfold settle
  split <;> simp

@[simp] theorem size_onSettled (c : CellId) (k : κ) : (l.onSettled c k).cells.size = l.cells.size := by
  unfold onSettled
  split <;> simp

theorem keeps_settle_all (o : Outcome υ ε) :
    ∀ (cs : List CellId) (l : Loop κ υ ε), Keeps l (cs.foldl (fun l c => l.settle c o) l)
  | [], _ => Keeps.refl
  | c :: cs, l => (keeps_settle l c o).trans (keeps_settle_all o cs _)

theorem outcome?_settle {c : CellId} {ks : List κ} (pending : l.cells[c]? = some (.pending ks))
    (o : Outcome υ ε) : (l.settle c o).outcome? c = some o := by
  rw [outcome?_eq_some, getElem?_settle l pending, if_pos rfl]

theorem outcome?_settle_of_ne {c x : CellId} (other : c ≠ x) (o : Outcome υ ε) :
    (l.settle c o).outcome? x = l.outcome? x := by
  by_cases pending : ∃ ks, l.cells[c]? = some (.pending ks)
  · obtain ⟨ks, pending⟩ := pending
    simp only [outcome?, getElem?_settle l pending, if_neg other]
  · rw [settle_of_not_pending l (fun ks found => pending ⟨ks, found⟩)]

theorem outcome?_onSettled (c : CellId) (k : κ) (x : CellId) :
    (l.onSettled c k).outcome? x = l.outcome? x := by
  by_cases pending : ∃ ks, l.cells[c]? = some (.pending ks)
  · obtain ⟨ks, pending⟩ := pending
    by_cases same : c = x
    · subst same
      simp [outcome?, getElem?_onSettled l pending, pending]
    · simp only [outcome?, getElem?_onSettled l pending, if_neg same]
  · simp only [outcome?, cells_onSettled_of_not_pending l (fun ks found => pending ⟨ks, found⟩)]

theorem outcome?_fresh {x : CellId} (inside : x < l.cells.size) : l.fresh.2.outcome? x = l.outcome? x := by
  simp only [outcome?, getElem?_fresh, if_neg (Nat.ne_of_lt inside)]

theorem outcome?_settledCell {x : CellId} (inside : x < l.cells.size) (o : Outcome υ ε) :
    (l.settledCell o).2.outcome? x = l.outcome? x := by
  simp only [outcome?, settledCell, Array.getElem?_push, if_neg (Nat.ne_of_lt inside)]

/-! ## What a loop owes -/

/-- What a cell owes through `react`: the reactions still waiting on it. -/
def Cell.owed (react : κ → List β) : Cell κ υ ε → List β
  | .pending ks => ks.flatMap react
  | .settled _ => []

/-- What a job owes through `react`: the reaction it resumes. -/
def Job.owed (react : κ → List β) : Job κ υ ε → List β
  | .resume k _ => react k
  | .task _ => []

/-- Everything a loop owes through `react`: each reaction, whether it still
waits on a cell or is queued to run. -/
def owed (react : κ → List β) (l : Loop κ υ ε) : List β :=
  l.cells.toList.flatMap (Cell.owed react) ++ l.jobs.flatMap (Job.owed react)

section Owed

variable (react : κ → List β)

theorem flatMap_at {γ : Type} (g : γ → List β) {xs : List γ} {i : Nat} {x : γ}
    (found : xs[i]? = some x) :
    xs.flatMap g = (xs.take i).flatMap g ++ (g x ++ (xs.drop (i + 1)).flatMap g) := by
  obtain ⟨inside, rfl⟩ := List.getElem?_eq_some_iff.1 found
  conv_lhs => rw [← List.take_append_drop i xs, List.drop_eq_getElem_cons inside]
  rw [List.flatMap_append, List.flatMap_cons]

theorem flatMap_modify_at {γ : Type} (g : γ → List β) (f : γ → γ) {xs : List γ} {i : Nat}
    {x : γ} (found : xs[i]? = some x) :
    (xs.modify i f).flatMap g = (xs.take i).flatMap g ++ (g (f x) ++ (xs.drop (i + 1)).flatMap g) := by
  obtain ⟨inside, rfl⟩ := List.getElem?_eq_some_iff.1 found
  rw [List.modify_eq_take_drop, List.drop_eq_getElem_cons inside, List.modifyHead_cons,
    List.flatMap_append, List.flatMap_cons]

theorem owed_settle (c : CellId) (o : Outcome υ ε) :
    (owed react (l.settle c o)).Perm (owed react l) := by
  by_cases pending : ∃ ks, l.cells[c]? = some (.pending ks)
  · obtain ⟨ks, pending⟩ := pending
    have found : l.cells.toList[c]? = some (.pending ks) := by simpa using pending
    rw [settle_of_pending l pending]
    simp only [owed, Array.toList_modify, flatMap_modify_at _ _ found, flatMap_at _ found,
      Cell.owed, List.nil_append, List.flatMap_append, List.flatMap_map, Job.owed,
      List.append_assoc]
    refine List.Perm.append_left _ ?_
    rw [← List.append_assoc]
    exact List.perm_append_comm
  · rw [settle_of_not_pending l (fun ks found => pending ⟨ks, found⟩)]

theorem owed_onSettled {c : CellId} (inside : c < l.cells.size) (k : κ) :
    (owed react (l.onSettled c k)).Perm (owed react l ++ react k) := by
  unfold onSettled
  split
  · next ks pending =>
    have found : l.cells.toList[c]? = some (.pending ks) := by simpa using pending
    simp only [owed, Array.toList_modify, flatMap_modify_at _ _ found, flatMap_at _ found,
      Cell.owed, List.flatMap_append, List.flatMap_cons, List.flatMap_nil, List.append_nil,
      List.append_assoc]
    refine List.Perm.append_left _ (List.Perm.append_left _ ?_)
    exact List.perm_append_comm.trans (by simp only [List.append_assoc]; rfl)
  · next o settled => simp [owed, Job.owed]
  · next missing =>
    rw [Array.getElem?_eq_getElem inside] at missing
    cases missing

theorem owed_settle_all (o : Outcome υ ε) :
    ∀ (cs : List CellId) (l : Loop κ υ ε),
      (owed react (cs.foldl (fun l c => l.settle c o) l)).Perm (owed react l)
  | [], _ => List.Perm.refl _
  | c :: cs, l => (owed_settle_all o cs _).trans (owed_settle l react c o)

@[simp] theorem owed_fresh : owed react l.fresh.2 = owed react l := by
  simp [owed, Cell.owed]

@[simp] theorem owed_defer (k : κ) : owed react (l.defer k) = owed react l := by
  simp [owed, Job.owed]

@[simp] theorem owed_settledCell (o : Outcome υ ε) : owed react (l.settledCell o).2 = owed react l := by
  simp [settledCell, owed, Cell.owed]

@[simp] theorem owed_startTimer (delay : Nat) (k : κ) : owed react (l.startTimer delay k).2 = owed react l :=
  rfl

@[simp] theorem owed_cancelTimer (t : Nat) : owed react (l.cancelTimer t) = owed react l := rfl

/-- Attaching a reaction that owes nothing leaves what the loop owes as it
was, whether the cell waits, has settled or does not exist. -/
theorem owed_onSettled_silent (c : CellId) {k : κ} (silent : react k = []) :
    (owed react (l.onSettled c k)).Perm (owed react l) := by
  by_cases inside : c < l.cells.size
  · simpa [silent] using owed_onSettled l react inside k
  · unfold onSettled
    rw [Array.getElem?_eq_none (Nat.le_of_not_lt inside)]

theorem owed_fireDue {limit : Nat} {l' : Loop κ υ ε} (fired : l.fireDue? limit = some l') :
    owed react l' = owed react l := by
  unfold fireDue? at fired
  split at fired
  · split at fired
    · cases fired
      simp [owed, Job.owed]
    · cases fired
  · cases fired

theorem owed_of_cons {j : Job κ υ ε} {rest : List (Job κ υ ε)} (queued : l.jobs = j :: rest) :
    (owed react l).Perm (owed react { l with jobs := rest } ++ Job.owed react j) := by
  simp only [owed, queued, List.flatMap_cons, List.append_assoc]
  exact List.Perm.append_left _ List.perm_append_comm

end Owed

/-! ## Pending cells -/

/-- A cell that exists and has not settled. -/
def Pending (l : Loop κ υ ε) (c : CellId) : Prop :=
  ∃ ks, l.cells[c]? = some (.pending ks)

namespace Pending

variable {l} {c x : CellId}

theorem lt (pending : l.Pending c) : c < l.cells.size := by
  obtain ⟨ks, found⟩ := pending
  exact (Array.getElem?_eq_some_iff.1 found).1

theorem outcome? (pending : l.Pending c) : l.outcome? c = none := by
  obtain ⟨ks, found⟩ := pending
  simp [Loop.outcome?, found]

theorem of_cells {l' : Loop κ υ ε} (same : l'.cells = l.cells) (pending : l.Pending c) : l'.Pending c := by
  obtain ⟨ks, found⟩ := pending
  exact ⟨ks, by rw [same]; exact found⟩

theorem fresh_self : l.fresh.2.Pending l.cells.size :=
  ⟨[], by simp⟩

theorem fresh (pending : l.Pending c) : l.fresh.2.Pending c := by
  have inside := pending.lt
  obtain ⟨ks, found⟩ := pending
  exact ⟨ks, by rw [getElem?_fresh, if_neg (Nat.ne_of_lt inside)]; exact found⟩

theorem settledCell (pending : l.Pending c) (o : Outcome υ ε) : (l.settledCell o).2.Pending c := by
  have inside := pending.lt
  obtain ⟨ks, found⟩ := pending
  refine ⟨ks, ?_⟩
  simp only [Loop.settledCell, Array.getElem?_push, if_neg (Nat.ne_of_lt inside)]
  exact found

theorem settle (pending : l.Pending x) (other : c ≠ x) (o : Outcome υ ε) : (l.settle c o).Pending x := by
  obtain ⟨ks, found⟩ := pending
  by_cases waits : ∃ ks', l.cells[c]? = some (.pending ks')
  · obtain ⟨ks', waits⟩ := waits
    exact ⟨ks, by rw [getElem?_settle l waits, if_neg other]; exact found⟩
  · exact ⟨ks, by rw [settle_of_not_pending l (fun ks' found' => waits ⟨ks', found'⟩)]; exact found⟩

theorem onSettled (pending : l.Pending x) (c : CellId) (k : κ) : (l.onSettled c k).Pending x := by
  obtain ⟨ks, found⟩ := pending
  by_cases waits : ∃ ks', l.cells[c]? = some (.pending ks')
  · obtain ⟨ks', waits⟩ := waits
    simp only [Loop.Pending, getElem?_onSettled l waits]
    split
    · exact ⟨_, rfl⟩
    · exact ⟨ks, found⟩
  · exact of_cells (cells_onSettled_of_not_pending l (fun ks' found' => waits ⟨ks', found'⟩) k)
      ⟨ks, found⟩

end Pending

/-! ## What a loop holds

A loop holds more than it owes: a queued task, and the task of a timer, will
run too.  `held` follows them beside every reaction, so that what a task or a
reaction will settle can be followed wherever it waits.  Settling and
attaching move what is held without losing it; firing or cancelling a timer
can only drop a task. -/

/-- What a queued task holds through `react`. -/
def Job.tasked (react : κ → List β) : Job κ υ ε → List β
  | .task k => react k
  | .resume _ _ => []

/-- Everything a loop holds through `react`: each reaction wherever it
waits, each queued task, and the task of each timer. -/
def held (react : κ → List β) (l : Loop κ υ ε) : List β :=
  owed react l ++ l.jobs.flatMap (Job.tasked react) ++ l.timers.flatMap (fun t => react t.task)

theorem earliest_mem : ∀ {ts : List (Timer κ)} {t : Timer κ}, earliest ts = some t → t ∈ ts
  | [], _, found => by cases found
  | u :: ts, t, found => by
    unfold earliest at found
    split at found
    · next v rest =>
      split at found <;> cases found
      · exact List.mem_cons_of_mem _ (earliest_mem rest)
      · exact List.mem_cons_self
    · cases found
      exact List.mem_cons_self

theorem fireDue?_eq_some {limit : Nat} {l' : Loop κ υ ε} (fired : l.fireDue? limit = some l') :
    ∃ t ∈ l.timers, l' = { l with timers := l.timers.filter (·.id != t.id),
                                  clock := max l.clock t.due,
                                  jobs := l.jobs ++ [.task t.task] } := by
  unfold fireDue? at fired
  split at fired
  · next t found =>
    split at fired
    · cases fired
      exact ⟨t, earliest_mem found, rfl⟩
    · cases fired
  · cases fired

section Held

variable (react : κ → List β)

@[simp] theorem fresh_timers : l.fresh.2.timers = l.timers := rfl

@[simp] theorem timers_settle (c : CellId) (o : Outcome υ ε) : (l.settle c o).timers = l.timers := by
  unfold settle
  split <;> rfl

@[simp] theorem timers_onSettled (c : CellId) (k : κ) : (l.onSettled c k).timers = l.timers := by
  unfold onSettled
  split <;> rfl

theorem tasked_settle (c : CellId) (o : Outcome υ ε) :
    (l.settle c o).jobs.flatMap (Job.tasked react) = l.jobs.flatMap (Job.tasked react) := by
  unfold settle
  split <;> simp [Job.tasked]

theorem tasked_onSettled (c : CellId) (k : κ) :
    (l.onSettled c k).jobs.flatMap (Job.tasked react) = l.jobs.flatMap (Job.tasked react) := by
  unfold onSettled
  split <;> simp [Job.tasked]

theorem held_settle (c : CellId) (o : Outcome υ ε) :
    (held react (l.settle c o)).Perm (held react l) := by
  unfold held
  rw [tasked_settle, timers_settle]
  exact ((owed_settle l react c o).append_right _).append_right _

theorem held_onSettled {c : CellId} (inside : c < l.cells.size) (k : κ) :
    (held react (l.onSettled c k)).Perm (held react l ++ react k) := by
  unfold held
  rw [tasked_onSettled, timers_onSettled]
  refine (((owed_onSettled l react inside k).append_right _).append_right _).trans ?_
  simp only [List.append_assoc]
  exact List.Perm.append_left _ (List.perm_append_comm.trans (by simp only [List.append_assoc]; rfl))

@[simp] theorem held_fresh : held react l.fresh.2 = held react l := by
  simp [held]

@[simp] theorem held_settledCell (o : Outcome υ ε) : held react (l.settledCell o).2 = held react l := by
  unfold held
  rw [owed_settledCell]
  rfl

theorem held_defer (k : κ) : (held react (l.defer k)).Perm (held react l ++ react k) := by
  simp only [held, owed_defer, defer_jobs, List.flatMap_append, List.flatMap_cons, List.flatMap_nil,
    Job.tasked, List.append_nil, List.append_assoc]
  exact List.Perm.append_left _ (List.Perm.append_left _ List.perm_append_comm)

theorem held_startTimer (delay : Nat) (k : κ) :
    held react (l.startTimer delay k).2 = held react l ++ react k := by
  simp [held, startTimer, owed]

theorem held_cancelTimer (t : Nat) : (held react (l.cancelTimer t)).Subperm (held react l) := by
  unfold held
  rw [owed_cancelTimer]
  exact (((List.filter_sublist (l := l.timers)).flatMap _).append_left _).subperm

theorem flatMap_filter_subperm {γ : Type} (f : γ → List β) (p : γ → Bool) :
    ∀ {xs : List γ} {x : γ}, x ∈ xs → p x = false → (f x ++ (xs.filter p).flatMap f).Subperm (xs.flatMap f)
  | [], _, absent, _ => by cases absent
  | y :: xs, x, present, out => by
    rcases List.mem_cons.1 present with rfl | present
    · simp only [List.filter_cons, out, Bool.false_eq_true, if_false, List.flatMap_cons]
      exact (((List.filter_sublist (l := xs)).flatMap f).append_left _).subperm
    · have rest := flatMap_filter_subperm f p present out
      simp only [List.filter_cons, List.flatMap_cons]
      split
      · rw [List.flatMap_cons]
        refine List.Subperm.trans (List.perm_append_comm_assoc (f x) (f y) _).subperm ?_
        exact (List.subperm_append_left _).2 rest
      · exact List.Subperm.trans rest (List.sublist_append_right _ _).subperm

theorem held_fireDue {limit : Nat} {l' : Loop κ υ ε} (fired : l.fireDue? limit = some l') :
    (held react l').Subperm (held react l) := by
  unfold fireDue? at fired
  split at fired
  · next t found =>
    split at fired
    · cases fired
      have kept := flatMap_filter_subperm (fun u => react u.task) (·.id != t.id) (earliest_mem found)
        (by simp)
      simp only [held, owed, List.flatMap_append, List.flatMap_cons, List.flatMap_nil, Job.tasked,
        Job.owed, List.append_nil, List.append_assoc]
      exact (List.subperm_append_left _).2 ((List.subperm_append_left _).2
        ((List.subperm_append_left _).2 kept))
    · cases fired
  · cases fired

theorem held_of_cons {j : Job κ υ ε} {rest : List (Job κ υ ε)} (queued : l.jobs = j :: rest) :
    (held react l).Perm (held react { l with jobs := rest } ++ (Job.owed react j ++ Job.tasked react j)) := by
  have owes := owed_of_cons l react queued
  unfold held
  rw [queued, List.flatMap_cons]
  refine ((owes.append_right _).append_right _).trans ?_
  simp only [List.append_assoc]
  refine List.Perm.append_left _ ?_
  simpa only [List.append_assoc] using
    @List.perm_append_comm _ (Job.owed react j ++ Job.tasked react j)
      (rest.flatMap (Job.tasked react) ++ l.timers.flatMap (fun t => react t.task))

end Held

end Loop
end Async
end HttpStub
