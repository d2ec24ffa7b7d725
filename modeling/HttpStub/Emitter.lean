import HttpStub.Failure

/-!
# Event emitters

An emitter keeps its registrations in a plain object, under each event's
name, in the order they were made.  A plain registration is the listener
itself; a one-shot registration is a wrapper with a ticket of its own, which
removes itself before it calls the listener.  Removing a listener therefore
finds plain registrations only, the first one of that listener.

A name the object does not hold finds what every plain object inherits: the
methods of the object prototype, such as `constructor` and `hasOwnProperty`,
each with the number of parameters it declares, and under `__proto__` the
prototype itself.  What such a name finds is no list: registering or
removing a listener under it fails, counting its listeners gives the
method's parameter count, and emitting it fails unless that count is zero.

Emitting calls the registrations that existed when the emit began, in
order: one removed meanwhile is still called, one added meanwhile is not.
The calls themselves are made by whoever runs the emitter, since a
listener may act on the emitter in turn; `Emitter.fire` is the step for one
registration.
-/

namespace HttpStub

/-- One registration of a listener named by `ℓ`. -/
inductive Registration (ℓ : Type) where
  | plain (listener : ℓ)
  | once (ticket : Nat) (listener : ℓ)
  deriving DecidableEq, Repr

/-- The listener a registration calls. -/
def Registration.listener {ℓ : Type} : Registration ℓ → ℓ
  | .plain l => l
  | .once _ l => l

/-- What a plain object inherits under a name it does not hold: a method,
with the number of parameters it declares, or the prototype itself. -/
inductive Inherited where
  | method (arity : Nat)
  | prototype
  deriving DecidableEq, Repr

/-- What every plain object inherits, by name. -/
def inherited? : String → Option Inherited
  | "constructor" | "hasOwnProperty" | "isPrototypeOf" | "propertyIsEnumerable"
  | "__lookupGetter__" | "__lookupSetter__" => some (.method 1)
  | "__defineGetter__" | "__defineSetter__" => some (.method 2)
  | "toString" | "toLocaleString" | "valueOf" => some (.method 0)
  | "__proto__" => some .prototype
  | _ => none

/-- What looking a name up in an emitter's table finds: the registrations
held under it, an inherited value, or nothing. -/
inductive Found (ℓ : Type) where
  | own (rs : List (Registration ℓ))
  | inherited (v : Inherited)
  | nothing

/-- Registrations by event name. -/
structure Emitter (ℓ : Type) where
  table : List (String × List (Registration ℓ)) := []
  nextTicket : Nat := 0

namespace Emitter

variable {ℓ : Type} [DecidableEq ℓ]

/-- What the table finds under an event's name. -/
def find (e : Emitter ℓ) (event : String) : Found ℓ :=
  match e.table.lookup event with
  | some rs => .own rs
  | none =>
    match inherited? event with
    | some v => .inherited v
    | none => .nothing

/-- The registrations held for an event, in order. -/
def registrations (e : Emitter ℓ) (event : String) : List (Registration ℓ) :=
  (e.table.lookup event).getD []

/-- Replace the registrations for an event. -/
def update (e : Emitter ℓ) (event : String) (rs : List (Registration ℓ)) : Emitter ℓ :=
  if e.table.any (·.1 == event) then
    { e with table := e.table.map fun p => if p.1 == event then (event, rs) else p }
  else { e with table := e.table ++ [(event, rs)] }

/-- The failure of appending to an inherited value. -/
def notAppendable : Failure := Failure.type "existing.push is not a function"

/-- The failure of searching an inherited value. -/
def notSearchable : Failure := Failure.type "listeners.indexOf is not a function"

/-- The failure of copying an inherited value. -/
def notIterable : Failure := Failure.type "listeners is not iterable"

/-- Append a registration to an event's list, or fail when the name finds
an inherited value. -/
def append (e : Emitter ℓ) (event : String) (r : Registration ℓ) : Except Failure (Emitter ℓ) :=
  match e.find event with
  | .own rs => .ok (e.update event (rs ++ [r]))
  | .nothing => .ok (e.update event [r])
  | .inherited _ => .error notAppendable

/-- Register a listener for an event. -/
def on (e : Emitter ℓ) (event : String) (l : ℓ) : Except Failure (Emitter ℓ) :=
  e.append event (.plain l)

/-- Register a listener for one call of an event: its wrapper takes the next
ticket. -/
def once (e : Emitter ℓ) (event : String) (l : ℓ) : Except Failure (Emitter ℓ) := do
  let e' ← e.append event (.once e.nextTicket l)
  pure { e' with nextTicket := e.nextTicket + 1 }

/-- Remove the first occurrence of a registration held for an event. -/
def withdraw (e : Emitter ℓ) (event : String) (r : Registration ℓ) : Emitter ℓ :=
  if e.table.any (·.1 == event) then e.update event ((e.registrations event).erase r) else e

/-- Remove the first plain registration of a listener, or fail when the name
finds an inherited value. -/
def off (e : Emitter ℓ) (event : String) (l : ℓ) : Except Failure (Emitter ℓ) :=
  match e.find event with
  | .inherited _ => .error notSearchable
  | _ => .ok (e.withdraw event (.plain l))

/-- Remove the registrations of one event, or of all events when no name
or the empty name is given; what a name inherits stays. -/
def removeAll (e : Emitter ℓ) (event : Option String) : Emitter ℓ :=
  match event with
  | some name =>
    if name.isEmpty then { e with table := [] }
    else { e with table := e.table.filter (·.1 != name) }
  | none => { e with table := [] }

/-- The number of listeners an event has: its registrations, or the
parameter count of the method its name inherits. -/
def count (e : Emitter ℓ) (event : String) : Nat :=
  match e.find event with
  | .own rs => rs.length
  | .inherited (.method arity) => arity
  | .inherited .prototype | .nothing => 0

/-- The registrations an emit goes through, copied when it begins; an
inherited value is copied only when its parameter count is zero, which
makes it empty. -/
def snapshot (e : Emitter ℓ) (event : String) : Except Failure (List (Registration ℓ)) :=
  match e.find event with
  | .own rs => .ok rs
  | .inherited (.method 0) | .nothing => .ok []
  | .inherited _ => .error notIterable

/-- Prepare the call of one registration of an emit: a one-shot
registration is removed first.  The listener to call is returned. -/
def fire (e : Emitter ℓ) (event : String) (r : Registration ℓ) : Emitter ℓ × ℓ :=
  match r with
  | .plain l => (e, l)
  | .once _ l => (e.withdraw event r, l)

end Emitter
end HttpStub
