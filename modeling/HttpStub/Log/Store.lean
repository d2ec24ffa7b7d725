import HttpStub.Text.Double

/-!
# The log store

A bounded buffer of log entries.  Each entry gets the next number, counting
from zero over the store's whole life; clearing empties the buffer but does
not reset the count.  When the buffer grows past one and a half times its
capacity, it is cut by the capacity as a slice from the end (see
`Double.relativeIndex`): a positive capacity keeps the newest entries, as
many as its integer part, zero keeps everything, and a negative capacity
`-k` drops the oldest entries, as many as the integer part of `k`.  A
negative capacity is always exceeded, so such a store loses its oldest
entries on every addition; an infinite one is never exceeded.

Every subscription is a listener of its own, even for a subscriber
subscribed before, and gets a ticket that withdraws exactly it.  Listeners
are told of every entry as it is added, in the order they subscribed.  The
arguments of an entry are opaque to the store.
-/

namespace HttpStub

/-- One logged line: its number, level name, message and arguments. -/
structure LogEntry (α : Type) where
  id : Nat
  level : String
  message : String
  args : List α
  deriving Repr

/-- A bounded log with subscribers named by `σ`; each subscription holds its
ticket. -/
structure LogStore (σ α : Type) where
  capacity : Double
  entries : List (LogEntry α) := []
  nextId : Nat := 0
  subscribers : List (Nat × σ) := []
  nextTicket : Nat := 0

namespace LogStore

variable {σ α : Type}

/-- An empty store of the given capacity. -/
def empty (capacity : Double := 1000) : LogStore σ α :=
  { capacity }

/-- How many of the oldest entries a cut removes from a buffer of `length`
entries: the start of the slice from `-capacity`. -/
def cutCount (capacity : Double) (length : Nat) : Nat :=
  capacity.neg.relativeIndex length

/-- Cut the buffer once it passes one and a half times the capacity. -/
def trim (capacity : Double) (entries : List (LogEntry α)) : List (LogEntry α) :=
  if (capacity.scale 3 2).lt (Double.ofNat entries.length) then
    entries.drop (cutCount capacity entries.length)
  else entries

/-- Add an entry.  The entry is returned with the store, for the
subscribers to be told of it. -/
def add (s : LogStore σ α) (level message : String) (args : List α) :
    LogStore σ α × LogEntry α :=
  let entry : LogEntry α := ⟨s.nextId, level, message, args⟩
  ({ s with entries := trim s.capacity (s.entries ++ [entry]), nextId := s.nextId + 1 }, entry)

/-- The messages of all entries, or of those of one level. -/
def messages (s : LogStore σ α) (level : Option String) : List String :=
  (s.entries.filter fun e => level.all (· == e.level)).map (·.message)

/-- Forget all entries, keeping the count. -/
def clear (s : LogStore σ α) : LogStore σ α :=
  { s with entries := [] }

/-- The number of entries held. -/
def size (s : LogStore σ α) : Nat :=
  s.entries.length

/-- Add a subscription for `sub`, with the ticket that withdraws it. -/
def subscribe (s : LogStore σ α) (sub : σ) : LogStore σ α × Nat :=
  ({ s with subscribers := s.subscribers ++ [(s.nextTicket, sub)],
            nextTicket := s.nextTicket + 1 }, s.nextTicket)

/-- Withdraw the subscription of a ticket, telling whether it was still
there. -/
def unsubscribe (s : LogStore σ α) (ticket : Nat) : LogStore σ α × Bool :=
  ({ s with subscribers := s.subscribers.filter (·.1 != ticket) },
    s.subscribers.any (·.1 == ticket))

end LogStore
end HttpStub
