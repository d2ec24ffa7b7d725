import HttpStub.Machine.Server

/-!
# Running the machine

`runJob` gives each reaction its meaning.  `settleAll` runs jobs until none
is left, within a budget, so that every run ends; `advance` moves the clock,
firing due timers one at a time and running what each one causes before
the next.
-/

namespace HttpStub
namespace Machine

open Async

/-- An observer records how the operation of a step settled: as the step's
outcome while that step runs, as a late notice afterwards.  An accept that
got a connection is remembered under its name. -/
def observe (step : Nat) (acceptId : Option String) (o : Outcome Value Failure) : Sim Unit := do
  if let (some id, .fulfilled (.socket s)) := (acceptId, o) then
    modify fun w => { w with accepted := (id, s) :: w.accepted.filter (·.1 != id) }
  let w ← get
  if w.step == step then set { w with stepOutcome := some o }
  else note (.late step o)

/-- An observer records that a client's connection closed. -/
def observeReply (c : Nat) (o : Outcome Value Failure) : Sim Unit := do
  let some k := (← get).clients[c]? | return
  match o with
  | .fulfilled (.bytes b) => note (.clientClosed k.name b)
  | _ => note (.clientClosed k.name [])

/-- Run one job. -/
def runJob : Job Reaction Value Failure → Sim Unit
  | .task (.deliver s chunk) => arrive s chunk
  | .task (.deliverEnd s) => arriveEnd s
  | .task (.shut s) => closeNow s
  | .task (.listenDone l) => listenerReady l
  | .task (.listenFailed l err) => listenerError l err
  | .task (.listenerClosed c) => settle c (.fulfilled .unit)
  | .task (.readTimedOut r) => readTimedOut r
  | .resume (.requestRead own) o => requestRead own o
  | .resume (.writeSent own) o => writeSent own o
  | .resume (.respondWritten _ path status summary own) o => respondWritten path status summary own o
  | .resume (.serveRead s own) o => serveRead s own o
  | .resume (.serveResponded own) o => serveResponded own o
  | .resume (.handleServed s own) o => handleServed s own o
  | .resume (.dispatchDone own) o => settle own o
  | .resume .workerDone o => workerDone o
  | .resume (.startBound a own) o => startBound a own o
  | .resume (.loopAccepted a own) o => loopAccepted a own o
  | .resume (.loopDispatched a own) o => loopDispatched a own o
  | .resume (.stopAcceptorClosed loop own) o => stopAcceptorClosed loop own o
  | .resume (.stopLoopDone own) o => stopLoopDone own o
  | .resume (.opSettled step acceptId) o => observe step acceptId o
  | .resume (.replyClosed c) o => observeReply c o
  | _ => pure ()

/-- The jobs run after one operation at most. -/
def jobBudget : Nat := 1000000

/-- Run jobs until none is left, within `fuel` jobs. -/
def settleWithin : Nat → Sim Unit
  | 0 => pure ()
  | fuel + 1 => do
    let w ← get
    match w.loop.next? with
    | some (j, loop) =>
      set { w with loop }
      runJob j
      settleWithin fuel
    | none => pure ()

/-- Run jobs until none is left. -/
def settleAll : Sim Unit :=
  settleWithin jobBudget

/-- The timers fired in one move of the clock at most. -/
def timerBudget : Nat := 10000

/-- Fire the timers due by `limit`, one at a time. -/
def fireWithin (limit : Nat) : Nat → Sim Unit
  | 0 => pure ()
  | fuel + 1 => do
    let w ← get
    match w.loop.fireDue? limit with
    | some loop =>
      set { w with loop }
      settleAll
      fireWithin limit fuel
    | none => pure ()

/-- Let `ms` time units pass. -/
def advance (ms : Nat) : Sim Unit := do
  settleAll
  let limit := (← get).loop.clock + ms
  fireWithin limit timerBudget
  modify fun w => { w with loop := { w.loop with clock := limit } }
  settleAll

end Machine
end HttpStub
