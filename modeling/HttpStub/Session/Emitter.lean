import HttpStub.Emitter
import HttpStub.Failure

/-!
# A scripted emitter

A session runs operations on an emitter whose listeners are named.  Every
call of a listener is recorded with its arguments, and then the listener
runs its actions: operations of the same kind, nested inside the call.  A
listener's actions are those given by the last registration that gave any;
a registration may also give none, which leaves the listener without
actions.

Nested calls are bounded by a depth budget, like the call stack that runs
them: a listener that keeps emitting its own event overflows it, and the
whole script fails with a `RangeError`.  Each call is recorded with the
room the budget had left when it was made, so the calls an emit makes
itself stand apart from those nested inside them.  An operation the
emitter refuses, on a name that finds an inherited value, fails the whole
script too.
-/

namespace HttpStub
namespace Session
namespace Emitter

/-- One operation on the emitter, with arguments of type `α`. -/
inductive Op (α : Type) where
  | on (event listener : String) (actions : Option (List (Op α)))
  | once (event listener : String) (actions : Option (List (Op α)))
  | off (event listener : String)
  | emit (event : String) (args : List α)
  | removeAll (event : Option String)
  | count (event : String)

/-- What an operation answers. -/
inductive Answer where
  | flag (b : Bool)
  | count (n : Nat)
  deriving DecidableEq, Repr

/-- A call of a listener, with its arguments and the room left for nesting
when it was made. -/
structure Call (α : Type) where
  listener : String
  args : List α
  room : Nat

/-- The state of a session. -/
structure State (α : Type) where
  emitter : HttpStub.Emitter String := {}
  actions : List (String × List (Op α)) := []
  calls : Array (Call α) := #[]

variable {α : Type}

/-- Remember the actions a registration gives its listener. -/
def State.remember (s : State α) (listener : String) : Option (List (Op α)) → State α
  | some acts => { s with actions := (listener, acts) :: s.actions.filter (·.1 != listener) }
  | none => s

/-- The failure of a call nested past the depth budget. -/
def stackOverflow : Failure :=
  Failure.range "Maximum call stack size exceeded"

mutual

/-- Run one operation with a depth budget. -/
def runOp (depth : Nat) (s : State α) : Op α → Except Failure (State α × Answer)
  | .on event l acts => do
    let s := s.remember l acts
    let emitter ← s.emitter.on event l
    pure ({ s with emitter }, .flag true)
  | .once event l acts => do
    let s := s.remember l acts
    let emitter ← s.emitter.once event l
    pure ({ s with emitter }, .flag true)
  | .off event l => do
    let emitter ← s.emitter.off event l
    pure ({ s with emitter }, .flag true)
  | .emit event args => do
    let snapshot ← s.emitter.snapshot event
    if snapshot.isEmpty then pure (s, .flag false)
    else do
      let s ← fireAll depth event args snapshot s
      pure (s, .flag true)
  | .removeAll event => pure ({ s with emitter := s.emitter.removeAll event }, .flag true)
  | .count event => pure (s, .count (s.emitter.count event))
termination_by (depth, 2, 0)

/-- Call the registrations of one emit, in order. -/
def fireAll (depth : Nat) (event : String) (args : List α) :
    List (Registration String) → State α → Except Failure (State α)
  | [], s => pure s
  | r :: rs, s => do
    let (emitter, l) := s.emitter.fire event r
    let s ← call depth l args { s with emitter }
    fireAll depth event args rs s
termination_by regs => (depth, 1, regs.length)

/-- Record a call and run the listener's actions one level deeper; with no
depth left the call overflows. -/
def call (depth : Nat) (l : String) (args : List α) (s : State α) :
    Except Failure (State α) :=
  let s := { s with calls := s.calls.push ⟨l, args, depth⟩ }
  match depth with
  | 0 => .error stackOverflow
  | depth + 1 => runNested depth ((s.actions.lookup l).getD []) s
termination_by (depth, 0, 0)

/-- Run nested operations in order, ignoring their answers. -/
def runNested (depth : Nat) : List (Op α) → State α → Except Failure (State α)
  | [], s => pure s
  | op :: ops, s => do
    let (s, _) ← runOp depth s op
    runNested depth ops s
termination_by ops => (depth, 3, ops.length)

end

/-- How deep listener calls may nest. -/
def depthBudget : Nat := 2000

/-- What one step reports: the answer and the calls made, in order. -/
structure Report (α : Type) where
  answer : Answer
  calls : List (String × List α)

/-- Run one operation of a script on the state the operations before it
left, and report its answer and the calls it made. -/
def step (acc : State α × Array (Report α)) (op : Op α) :
    Except Failure (State α × Array (Report α)) := do
  let (s, a) ← runOp depthBudget { acc.1 with calls := #[] } op
  pure (s, acc.2.push ⟨a, s.calls.toList.map fun c => (c.listener, c.args)⟩)

/-- Run a script on a new emitter, or fail as soon as an operation fails. -/
def run (ops : List (Op α)) : Except Failure (List (Report α)) := do
  let (_, reports) ← ops.foldlM step ({}, #[])
  pure reports.toList

end Emitter
end Session
end HttpStub
