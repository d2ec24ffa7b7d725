import HttpStub.Failure
import HttpStub.Async.Loop

/-!
# Acceptors

An acceptor turns the connections and errors of a listener into answers to
`accept` calls, one by one.  What arrives while nobody waits is queued in
arrival order; an `accept` while something is queued takes the oldest
arrival at once.  So the queue of arrivals and the queue of waiters are
never both non-empty.

Closing refuses every waiter and every later `accept`, and closes the
connections that were queued and never taken; a connection that arrives
after closing is closed at once.

The functions here are the bookkeeping only.  What they return tells the
caller which cells to settle and which connections to close.
-/

namespace HttpStub

/-- Something a listener hands over: a connection, or a failure to accept. -/
inductive Arrival where
  | socket (id : Nat)
  | failure (f : Failure)
  deriving Repr

/-- The state of one acceptor. -/
structure Acceptor where
  listener : Option Nat := none
  ready : List Arrival := []
  waiters : List Async.CellId := []
  closed : Bool := false
  boundPort : Option Double := none
  deriving Repr

/-- What an `accept` call gets. -/
inductive Take where
  | arrival (a : Arrival)
  | refused
  | wait
  deriving Repr

/-- What happens to an arrival. -/
inductive Placement where
  /-- The acceptor is closed: a connection is closed, a failure dropped. -/
  | discard
  | queued
  /-- The oldest waiter gets it. -/
  | handed (waiter : Async.CellId)
  deriving Repr

/-- What closing leaves to do. -/
structure Shutdown where
  refuse : List Async.CellId
  closeSockets : List Nat
  closeListener : Option Nat
  deriving Repr

namespace Acceptor

/-- Take the oldest arrival, or refuse when closed, or wait. -/
def take (a : Acceptor) (waiter : Async.CellId) : Acceptor × Take :=
  match a.ready with
  | x :: rest => ({ a with ready := rest }, .arrival x)
  | [] =>
    if a.closed then (a, .refused)
    else ({ a with waiters := a.waiters ++ [waiter] }, .wait)

/-- Place an arrival: drop it when closed, hand it to the oldest waiter, or
queue it. -/
def place (a : Acceptor) (x : Arrival) : Acceptor × Placement :=
  if a.closed then (a, .discard)
  else match a.waiters with
    | w :: rest => ({ a with waiters := rest }, .handed w)
    | [] => ({ a with ready := a.ready ++ [x] }, .queued)

/-- The queued connections. -/
def readySockets : List Arrival → List Nat
  | [] => []
  | .socket s :: rest => s :: readySockets rest
  | .failure _ :: rest => readySockets rest

/-- Close: answers `none` when already closed. -/
def shut (a : Acceptor) : Acceptor × Option Shutdown :=
  if a.closed then (a, none)
  else
    ({ a with closed := true, waiters := [], ready := [], listener := none },
     some ⟨a.waiters, readySockets a.ready, a.listener⟩)

end Acceptor
end HttpStub
