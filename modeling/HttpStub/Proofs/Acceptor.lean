import HttpStub.Net.Acceptor
import Mathlib.Data.List.Induction

namespace HttpStub
namespace Acceptor

/-!
# Acceptors over every run

An acceptor meets two queues from opposite ends: the listener pushes
arrivals, connections or failures to accept one, and the accept loop pulls
with `accept` calls.  A run is any sequence of arrivals, `accept` calls and
`close` calls, and it records what each `accept` call was answered and which
connections the acceptor closed.  Each `accept` call names the cell it waits
on.

Until the first close, the `k`-th `accept` call is answered with the `k`-th
arrival, whichever of the two came first: the arrivals that no call has met
yet wait in arrival order, or else the calls that no arrival has met yet
wait in call order, so the two queues are never both non-empty.  The first
close refuses the calls still waiting and closes the connections still
queued; afterwards every `accept` call is refused and every connection that
arrives is closed.  So every connection the listener hands over is either
given to exactly one `accept` call or closed by the acceptor, by position in
the arrivals.
-/

/-- A call made on an acceptor: the listener hands over an arrival, the
accept loop asks for one, or the acceptor is closed. -/
inductive Call where
  | arrive (x : Arrival)
  | accept (waiter : Async.CellId)
  | close

/-- How an acceptor answers a call. -/
inductive Reply where
  | placed (placement : Placement)
  | taken (take : Take)
  | shut (shutdown : Option Shutdown)

/-- Make a call on an acceptor. -/
def call (a : Acceptor) : Call → Acceptor × Reply
  | .arrive x => ((a.place x).1, .placed (a.place x).2)
  | .accept waiter => ((a.take waiter).1, .taken (a.take waiter).2)
  | .close => (a.shut.1, .shut a.shut.2)

/-- What an `accept` call settles with: an arrival (it resolves with the
connection or rejects with the failure), or the refusal of a closed
acceptor. -/
inductive Answer where
  | item (x : Arrival)
  | closed

/-- The `accept` calls a call settles, with their answers. -/
def answers : Call → Reply → List (Async.CellId × Answer)
  | .accept waiter, .taken (.arrival x) => [(waiter, .item x)]
  | .accept waiter, .taken .refused => [(waiter, .closed)]
  | .arrive x, .placed (.handed waiter) => [(waiter, .item x)]
  | .close, .shut (some shutdown) => shutdown.refuse.map fun waiter => (waiter, .closed)
  | _, _ => []

/-- The connections a call has the acceptor close. -/
def closes : Call → Reply → List Nat
  | .arrive (.socket s), .placed .discard => [s]
  | .close, .shut (some shutdown) => shutdown.closeSockets
  | _, _ => []

/-- What a run has done so far. -/
structure Ledger where
  answered : List (Async.CellId × Answer) := []
  closedSockets : List Nat := []

/-- One call, recorded. -/
def step (s : Acceptor × Ledger) (c : Call) : Acceptor × Ledger :=
  ((s.1.call c).1,
    { answered := s.2.answered ++ answers c (s.1.call c).2,
      closedSockets := s.2.closedSockets ++ closes c (s.1.call c).2 })

/-- Run calls on an acceptor. -/
def replay (a : Acceptor) (calls : List Call) : Acceptor × Ledger :=
  calls.foldl step (a, {})

/-- The cells of the `accept` calls, in call order. -/
def accepts : List Call → List Async.CellId
  | [] => []
  | .accept waiter :: rest => waiter :: accepts rest
  | _ :: rest => accepts rest

/-- The arrivals, in arrival order. -/
def arrivals : List Call → List Arrival
  | [] => []
  | .arrive x :: rest => x :: arrivals rest
  | _ :: rest => arrivals rest

/-- Whether a call closes the acceptor. -/
def Call.isClose : Call → Bool
  | .close => true
  | _ => false

/-- The connection an answer hands over, if it hands one over. -/
def Answer.sockets : Answer → List Nat
  | .item (.socket s) => [s]
  | _ => []

/-- The connections an acceptor handed to `accept` calls, in the order it
handed them. -/
def Ledger.handed (l : Ledger) : List Nat :=
  l.answered.flatMap fun answered => answered.2.sockets

@[simp] theorem replay_nil (a : Acceptor) : replay a [] = (a, {}) := rfl

@[simp] theorem replay_snoc (a : Acceptor) (calls : List Call) (c : Call) :
    replay a (calls ++ [c]) = step (replay a calls) c := by
  simp [replay, List.foldl_append]

@[simp] theorem accepts_append (calls more : List Call) :
    accepts (calls ++ more) = accepts calls ++ accepts more := by
  induction calls with
  | nil => rfl
  | cons c rest ih => cases c <;> simp [accepts, ih]

@[simp] theorem arrivals_append (calls more : List Call) :
    arrivals (calls ++ more) = arrivals calls ++ arrivals more := by
  induction calls with
  | nil => rfl
  | cons c rest ih => cases c <;> simp [arrivals, ih]

@[simp] theorem readySockets_append (xs ys : List Arrival) :
    readySockets (xs ++ ys) = readySockets xs ++ readySockets ys := by
  induction xs with
  | nil => rfl
  | cons x rest ih => cases x <;> simp [readySockets, ih]

/-! ## Meeting in order -/

section Zip

variable {α β : Type}

theorem zip_snoc_of_length_le : ∀ {xs : List α} {ys : List β}, xs.length ≤ ys.length →
    ∀ y, xs.zip (ys ++ [y]) = xs.zip ys
  | [], _, _, _ => rfl
  | _ :: _, [], short, _ => by simp at short
  | _ :: _, _ :: _, short, y => by
    simp [zip_snoc_of_length_le (Nat.le_of_succ_le_succ short) y]

theorem snoc_zip_of_length_le : ∀ {xs : List α} {ys : List β}, ys.length ≤ xs.length →
    ∀ x, (xs ++ [x]).zip ys = xs.zip ys
  | _, [], _, _ => by simp
  | [], _ :: _, short, _ => by simp at short
  | _ :: _, _ :: _, short, x => by
    simp [snoc_zip_of_length_le (Nat.le_of_succ_le_succ short) x]

theorem zip_snoc_of_drop : ∀ {xs : List α} {ys : List β} {x : α} {rest : List α},
    xs.drop ys.length = x :: rest → ∀ y, xs.zip (ys ++ [y]) = xs.zip ys ++ [(x, y)]
  | [], _, _, _, meets, _ => by simp at meets
  | _ :: _, [], _, _, meets, y => by simp at meets; simp [meets]
  | _ :: _, _ :: _, _, _, meets, y => by
    simp [zip_snoc_of_drop (by simpa using meets) y]

theorem snoc_zip_of_drop : ∀ {xs : List α} {ys : List β} {y : β} {rest : List β},
    ys.drop xs.length = y :: rest → ∀ x, (xs ++ [x]).zip ys = xs.zip ys ++ [(x, y)]
  | _, [], _, _, meets, _ => by simp at meets
  | [], _ :: _, _, _, meets, x => by simp at meets; simp [meets]
  | _ :: _, _ :: _, _, _, meets, x => by
    simp [snoc_zip_of_drop (by simpa using meets) x]

end Zip

/-- Where a run that has not closed the acceptor stands: each `accept` call
has met the arrival of the same rank, and what one queue has beyond the
other waits. -/
structure Matched (a : Acceptor) (l : Ledger) (calls : List Call) : Prop where
  ready : a.ready = (arrivals calls).drop (accepts calls).length
  waiters : a.waiters = (accepts calls).drop (arrivals calls).length
  opened : a.closed = false
  answered : l.answered = (accepts calls).zip ((arrivals calls).map .item)
  nothing_closed : l.closedSockets = []

theorem matched_nil (a : Acceptor) (empty : a.ready = [] ∧ a.waiters = [] ∧ a.closed = false) :
    Matched a {} [] :=
  ⟨empty.1, empty.2.1, empty.2.2, rfl, rfl⟩

section Matched

variable {a : Acceptor} {l : Ledger} {calls : List Call}

theorem Matched.arrive (matched : Matched a l calls) (x : Arrival) :
    Matched (step (a, l) (.arrive x)).1 (step (a, l) (.arrive x)).2 (calls ++ [.arrive x]) := by
  obtain ⟨ready, waiters, opened, answered, nothing_closed⟩ := matched
  cases waiting : (accepts calls).drop (arrivals calls).length with
  | nil =>
    have short : (accepts calls).length ≤ (arrivals calls).length := by
      simpa using waiting
    have placed : a.place x = ({ a with ready := a.ready ++ [x] }, .queued) := by
      simp [place, opened, waiters, waiting]
    simp only [step, call, placed]
    refine ⟨?_, ?_, opened, ?_, ?_⟩
    · simp [ready, arrivals, accepts, List.drop_append_of_le_length short]
    · simp [waiters, arrivals, accepts, waiting]
      omega
    · simp only [answered, answers, List.append_nil, arrivals_append, accepts_append, arrivals,
        accepts, List.map_append, List.map_singleton]
      exact (zip_snoc_of_length_le (by simpa using short) _).symm
    · cases x <;> simp [closes, nothing_closed]
  | cons waiter rest =>
    have long : (arrivals calls).length < (accepts calls).length := by
      have := congrArg List.length waiting
      simp at this
      omega
    have placed : a.place x = ({ a with waiters := rest }, .handed waiter) := by
      simp [place, opened, waiters, waiting]
    simp only [step, call, placed]
    refine ⟨?_, ?_, opened, ?_, ?_⟩
    · have gone : (arrivals calls ++ [x]).length ≤ (accepts calls).length := by
        simp only [List.length_append, List.length_singleton]
        omega
      simp only [ready, arrivals_append, accepts_append, arrivals, accepts, List.append_nil,
        List.drop_eq_nil_of_le gone, List.drop_eq_nil_of_le (Nat.le_of_lt long)]
    · simp [arrivals, accepts, ← List.drop_drop, waiting]
    · simp only [answered, answers, arrivals_append, accepts_append, arrivals, accepts,
        List.map_append, List.map_singleton, List.append_nil]
      exact (zip_snoc_of_drop (by simpa using waiting) _).symm
    · simp [closes, nothing_closed]

theorem Matched.accept (matched : Matched a l calls) (waiter : Async.CellId) :
    Matched (step (a, l) (.accept waiter)).1 (step (a, l) (.accept waiter)).2
      (calls ++ [.accept waiter]) := by
  obtain ⟨ready, waiters, opened, answered, nothing_closed⟩ := matched
  cases queued : (arrivals calls).drop (accepts calls).length with
  | nil =>
    have short : (arrivals calls).length ≤ (accepts calls).length := by
      simpa using queued
    have taken : a.take waiter = ({ a with waiters := a.waiters ++ [waiter] }, .wait) := by
      simp [take, opened, ready, queued]
    simp only [step, call, taken]
    refine ⟨?_, ?_, opened, ?_, ?_⟩
    · simp [ready, arrivals, accepts, queued]
      omega
    · simp [waiters, arrivals, accepts, List.drop_append_of_le_length short]
    · simp only [answered, answers, List.append_nil, arrivals_append, accepts_append, arrivals,
        accepts]
      exact (snoc_zip_of_length_le (by simpa using short) _).symm
    · simp [closes, nothing_closed]
  | cons x rest =>
    have long : (accepts calls).length < (arrivals calls).length := by
      have := congrArg List.length queued
      simp at this
      omega
    have taken : a.take waiter = ({ a with ready := rest }, .arrival x) := by
      simp [take, ready, queued]
    simp only [step, call, taken]
    refine ⟨?_, ?_, opened, ?_, ?_⟩
    · simp [arrivals, accepts, ← List.drop_drop, queued]
    · have gone : (accepts calls ++ [waiter]).length ≤ (arrivals calls).length := by
        simp only [List.length_append, List.length_singleton]
        omega
      simp only [waiters, arrivals_append, accepts_append, arrivals, accepts, List.append_nil,
        List.drop_eq_nil_of_le gone, List.drop_eq_nil_of_le (Nat.le_of_lt long)]
    · simp only [answered, answers, arrivals_append, accepts_append, arrivals, accepts,
        List.append_nil]
      exact (snoc_zip_of_drop (by rw [← List.map_drop, queued]; rfl) _).symm
    · simp [closes, nothing_closed]

end Matched

theorem matched_replay (a : Acceptor) (empty : a.ready = [] ∧ a.waiters = [] ∧ a.closed = false) :
    ∀ calls : List Call, (∀ c ∈ calls, c.isClose = false) →
      Matched (replay a calls).1 (replay a calls).2 calls := by
  intro calls
  induction calls using List.reverseRecOn with
  | nil => intro _; exact matched_nil a empty
  | append_singleton calls c ih =>
    intro noClose
    have matched := ih fun c' member => noClose c' (List.mem_append_left _ member)
    rw [replay_snoc]
    cases c with
    | arrive x => exact matched.arrive x
    | accept waiter => exact matched.accept waiter
    | close =>
      have closing := noClose .close (List.mem_append_right _ (List.mem_singleton_self _))
      simp [Call.isClose] at closing

/-- Where a run stands once the acceptor was closed after the calls
`before`: the calls that waited then, and every call since, were refused,
and the connections queued then, and every one since, were closed. -/
structure Closed (a : Acceptor) (l : Ledger) (before after : List Call) : Prop where
  ready : a.ready = []
  waiters : a.waiters = []
  closed : a.closed = true
  answered : l.answered = (accepts before).zip ((arrivals before).map .item) ++
      ((accepts before).drop (arrivals before).length).map (·, Answer.closed) ++
      (accepts after).map (·, Answer.closed)
  closedSockets : l.closedSockets =
      readySockets ((arrivals before).drop (accepts before).length) ++ readySockets (arrivals after)

theorem Matched.close {a : Acceptor} {l : Ledger} {calls : List Call}
    (matched : Matched a l calls) :
    Closed (step (a, l) .close).1 (step (a, l) .close).2 calls [] := by
  obtain ⟨ready, waiters, opened, answered, nothing_closed⟩ := matched
  have shut : a.shut = ({ a with closed := true, waiters := [], ready := [], listener := none },
      some ⟨a.waiters, readySockets a.ready, a.listener⟩) := by
    simp [Acceptor.shut, opened]
  simp only [step, call, shut]
  exact ⟨rfl, rfl, rfl, by simp [answers, answered, waiters, accepts],
    by simp [closes, nothing_closed, ready, arrivals, readySockets]⟩

theorem Closed.extend {a : Acceptor} {l : Ledger} {before after : List Call}
    (finished : Closed a l before after) (c : Call) :
    Closed (step (a, l) c).1 (step (a, l) c).2 before (after ++ [c]) := by
  obtain ⟨ready, waiters, closed, answered, closedSockets⟩ := finished
  cases c with
  | arrive x =>
    have placed : a.place x = (a, .discard) := by simp [place, closed]
    simp only [step, call, placed]
    refine ⟨ready, waiters, closed, ?_, ?_⟩
    · simp [answers, answered, accepts]
    · cases x <;> simp [closes, closedSockets, arrivals, readySockets]
  | accept waiter =>
    have taken : a.take waiter = (a, .refused) := by simp [take, ready, closed]
    simp only [step, call, taken]
    refine ⟨ready, waiters, closed, ?_, ?_⟩
    · simp [answers, answered, accepts]
    · simp [closes, closedSockets, arrivals]
  | close =>
    have shut : a.shut = (a, none) := by simp [Acceptor.shut, closed]
    simp only [step, call, shut]
    refine ⟨ready, waiters, closed, ?_, ?_⟩
    · simp [answers, answered, accepts]
    · simp [closes, closedSockets, arrivals]

theorem closed_replay {a : Acceptor} {before : List Call}
    (matched : Matched (replay a before).1 (replay a before).2 before) :
    ∀ after : List Call,
      Closed (replay a (before ++ .close :: after)).1 (replay a (before ++ .close :: after)).2
        before after := by
  intro after
  induction after using List.reverseRecOn with
  | nil =>
    rw [← List.singleton_append, ← List.append_assoc, List.append_nil, replay_snoc]
    exact matched.close
  | append_singleton after c ih =>
    rw [← List.cons_append, ← List.append_assoc, replay_snoc]
    exact ih.extend c

/-! ### The shape of the queues -/

/-- The shape every acceptor a run reaches has: the queue of arrivals and the
queue of waiters are never both non-empty, and a closed acceptor has neither. -/
structure Balanced (a : Acceptor) : Prop where
  one_empty : a.ready = [] ∨ a.waiters = []
  closed_empty : a.closed = true → a.ready = [] ∧ a.waiters = []

theorem call_of_closed {a : Acceptor} (closed : a.closed = true) (ready : a.ready = [])
    (c : Call) : (a.call c).1 = a := by
  cases c <;> simp [call, place, take, Acceptor.shut, closed, ready]

theorem balanced_call {a : Acceptor} (balanced : a.Balanced) (c : Call) :
    (a.call c).1.Balanced := by
  obtain ⟨one_empty, closed_empty⟩ := balanced
  cases closing : a.closed with
  | true =>
    rw [call_of_closed closing (closed_empty closing).1]
    exact ⟨one_empty, closed_empty⟩
  | false =>
    cases c with
    | arrive x =>
      cases waiting : a.waiters with
      | nil =>
        exact ⟨by simp [call, place, closing, waiting], by simp [call, place, closing, waiting]⟩
      | cons w rest =>
        have ready : a.ready = [] := by simpa [waiting] using one_empty
        exact ⟨by simp [call, place, closing, waiting, ready],
          by simp [call, place, closing, waiting]⟩
    | accept waiter =>
      cases queued : a.ready with
      | nil => exact ⟨by simp [call, take, closing, queued], by simp [call, take, closing, queued]⟩
      | cons x rest =>
        have waiters : a.waiters = [] := by simpa [queued] using one_empty
        exact ⟨by simp [call, take, queued, waiters], by simp [call, take, closing, queued]⟩
    | close => exact ⟨by simp [call, Acceptor.shut, closing], by simp [call, Acceptor.shut, closing]⟩

theorem balanced_replay {a : Acceptor} (balanced : a.Balanced) :
    ∀ calls : List Call, (replay a calls).1.Balanced := by
  intro calls
  induction calls using List.reverseRecOn with
  | nil => simpa using balanced
  | append_singleton calls c ih =>
    rw [replay_snoc]
    exact balanced_call ih c

/-! ### Where the connections go -/

/-- The connections among matched answers are the first arrivals, one per
`accept` call. -/
theorem sockets_zip_items :
    ∀ (ws : List Async.CellId) (xs : List Arrival),
      (ws.zip (xs.map Answer.item)).flatMap (fun answered => answered.2.sockets) =
        readySockets (xs.take ws.length)
  | [], xs => by simp [readySockets]
  | _ :: _, [] => by simp [readySockets]
  | _ :: ws, x :: xs => by
    rw [List.map_cons, List.zip_cons_cons, List.flatMap_cons, sockets_zip_items ws xs,
      List.length_cons, List.take_succ_cons]
    cases x <;> rfl

theorem sockets_refusals (ws : List Async.CellId) :
    (ws.map (·, Answer.closed)).flatMap (fun answered => answered.2.sockets) = [] := by
  simp [Answer.sockets]

/-- Every `accept` call before the first close gets the arrival of the same
rank, in arrival order; the calls still waiting at the close, and every call
after it, are refused; each connection is handed over or closed, once. -/
theorem replay_settles_in_arrival_order (listener : Option Nat) (boundPort : Option Double)
    (before after : List Call) (open_before : ∀ c ∈ before, c.isClose = false) :
    (replay { listener, boundPort } before).1.Balanced ∧
    (replay { listener, boundPort } (before ++ .close :: after)).1.Balanced ∧
    (replay { listener, boundPort } before).2.answered =
      (accepts before).zip ((arrivals before).map .item) ∧
    (replay { listener, boundPort } (before ++ .close :: after)).2.answered =
      (accepts before).zip ((arrivals before).map .item) ++
        ((accepts before).drop (arrivals before).length ++ accepts after).map
          (·, Answer.closed) ∧
    (replay { listener, boundPort } (before ++ .close :: after)).2.handed ++
        (replay { listener, boundPort } (before ++ .close :: after)).2.closedSockets =
      readySockets (arrivals (before ++ .close :: after)) := by
  have empty : Balanced { listener, boundPort } := ⟨Or.inl rfl, fun _ => ⟨rfl, rfl⟩⟩
  have matched := matched_replay { listener, boundPort } ⟨rfl, rfl, rfl⟩ before open_before
  have closed := closed_replay matched after
  refine ⟨balanced_replay empty _, balanced_replay empty _, matched.answered, ?_, ?_⟩
  · rw [closed.answered, List.map_append, List.append_assoc]
  · have handed : (replay { listener, boundPort } (before ++ .close :: after)).2.handed =
        readySockets ((arrivals before).take (accepts before).length) := by
      simp only [Ledger.handed, closed.answered, List.flatMap_append, sockets_zip_items,
        sockets_refusals, List.append_nil]
    rw [handed, closed.closedSockets, ← List.append_assoc, ← readySockets_append,
      List.take_append_drop, ← readySockets_append]
    simp [arrivals]

/-- Two calls wait and one connection arrives; after the close, a late
connection is closed and a late call refused. -/
theorem replay_settles_two_waiters :
    (replay { listener := some 1, boundPort := some (Double.ofNat 8080) }
        ([.accept 0, .accept 1, .arrive (.socket 5)] ++
          .close :: [.arrive (.socket 6), .accept 2])).2.answered =
      [(0, .item (.socket 5)), (1, .closed), (2, .closed)] :=
  (replay_settles_in_arrival_order (some 1) (some (Double.ofNat 8080))
    [.accept 0, .accept 1, .arrive (.socket 5)] [.arrive (.socket 6), .accept 2]
    (by decide)).2.2.2.1.trans rfl

end Acceptor
end HttpStub
