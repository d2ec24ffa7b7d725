import HttpStub.Log.Store
import HttpStub.Log.Logger

/-!
# A scripted log store

A session adds entries to a log store, directly or through a chain of
logger layers, queries it, and subscribes named listeners.  Each step
reports the store's size, the result of a query, and the entries delivered
to subscribers during the step, in order.  A name's unsubscription
withdraws the latest subscription made under that name; a name never
subscribed has nothing to withdraw.
-/

namespace HttpStub
namespace Session
namespace LogStore

/-- One operation on the store, with arguments of type `α`. -/
inductive Op (α : Type) where
  | add (level message : String) (args : List α)
  | log (chain : List LogLayer) (level : LogLevel) (message : String) (args : List α)
  | messages (level : Option String)
  | entries
  | size
  | clear
  | subscribe (sub : String)
  | unsubscribe (sub : String)

/-- What a query answers. -/
inductive Answer (α : Type) where
  | messages (ms : List String)
  | entries (es : List (LogEntry α))
  | size (n : Nat)
  | removed (b : Bool)

/-- A store with listeners named by strings, and the ticket of each name's
latest subscription. -/
structure State (α : Type) where
  store : HttpStub.LogStore String α
  tickets : List (String × Nat) := []

/-- What one step reports. -/
structure Report (α : Type) where
  answer : Option (Answer α)
  size : Nat
  received : List (String × LogEntry α)

variable {α : Type}

/-- Add an entry and deliver it to every subscriber. -/
def record (s : HttpStub.LogStore String α) (level message : String) (args : List α) :
    HttpStub.LogStore String α × List (String × LogEntry α) :=
  let (s', entry) := s.add level message args
  (s', s.subscribers.map fun (_, sub) => (sub, entry))

/-- Run one operation on a store. -/
def onStore (s : HttpStub.LogStore String α) : Op α → HttpStub.LogStore String α × Report α
  | .add level message args =>
    let (s, got) := record s level message args
    (s, ⟨none, s.size, got⟩)
  | .log chain level message args =>
    match LogLayer.chain chain level message with
    | some m =>
      let (s, got) := record s level.name m args
      (s, ⟨none, s.size, got⟩)
    | none => (s, ⟨none, s.size, []⟩)
  | .messages level => (s, ⟨some (.messages (s.messages level)), s.size, []⟩)
  | .entries => (s, ⟨some (.entries s.entries), s.size, []⟩)
  | .size => (s, ⟨some (.size s.size), s.size, []⟩)
  | .clear => (s.clear, ⟨none, 0, []⟩)
  | .subscribe _ => (s, ⟨none, s.size, []⟩)
  | .unsubscribe _ => (s, ⟨some (.removed false), s.size, []⟩)

/-- Run one operation: subscriptions go through the names' tickets, the
rest straight to the store. -/
def step (st : State α) : Op α → State α × Report α
  | .subscribe sub =>
    let (store, ticket) := st.store.subscribe sub
    (⟨store, (sub, ticket) :: st.tickets⟩, ⟨none, store.size, []⟩)
  | .unsubscribe sub =>
    match st.tickets.lookup sub with
    | some ticket =>
      let (store, b) := st.store.unsubscribe ticket
      ({ st with store }, ⟨some (.removed b), store.size, []⟩)
    | none => (st, ⟨some (.removed false), st.store.size, []⟩)
  | op =>
    let (store, r) := onStore st.store op
    ({ st with store }, r)

/-- Run a script on a new store of the given capacity. -/
def run (capacity : Double) (ops : List (Op α)) : List (Report α) :=
  (ops.foldl (fun (acc : State α × Array (Report α)) op =>
    let (s, r) := step acc.1 op
    (s, acc.2.push r)) (⟨HttpStub.LogStore.empty capacity, []⟩, #[])).2.toList

end LogStore
end Session
end HttpStub
