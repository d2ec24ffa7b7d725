import HttpStub.Proofs.Emitter.Emit

/-!
# Removing the registrations of an event

Removing the registrations of a named event leaves that event with none and
every other event as it was, its registrations and so its count
(`Emitter.removeAll_keeps_other_events`); removing them with no name leaves
no registration at all.  The two are told apart by whether the name is
empty, not by whether one is given.  The empty name is an event like any
other for `on`, `off`, `emit` and `count`, but removing its registrations
removes those of every event
(`Session.Emitter.empty_name_removes_every_event`).
-/

namespace HttpStub
namespace Emitter

variable {ℓ : Type}

/-- `e'` differs from `e` at most in what its table holds under `name`. -/
structure Frame (name : String) (e e' : Emitter ℓ) : Prop where
  others : ∀ key, key ≠ name → e'.table.lookup key = e.table.lookup key
  next : e'.nextTicket = e.nextTicket

/-- Removing the registrations of an event with a non-empty name touches that
event only. -/
theorem frame_removeAll {name : String} (named : name ≠ "") (e : Emitter ℓ) :
    Frame name e (e.removeAll (some name)) where
  others key other := by
    rw [lookup_removeAll_some, if_neg (not_or.2 ⟨named, other⟩)]
  next := nextTicket_removeAll e _

/-- Removing the registrations of an event with a non-empty name leaves it
with none, and every other event with its registrations and count; removing
them with no name, or with the empty name, leaves every event with none. -/
theorem removeAll_keeps_other_events (e : Emitter ℓ) :
    (∀ name, name ≠ "" →
      (e.removeAll (some name)).registrations name = [] ∧
      ∀ key, key ≠ name →
        (e.removeAll (some name)).registrations key = e.registrations key ∧
        (e.removeAll (some name)).count key = e.count key) ∧
    (∀ key, (e.removeAll none).registrations key = []) ∧
    (∀ key, (e.removeAll (some "")).registrations key = []) := by
  refine ⟨fun name named => ⟨?_, fun key other => ?_⟩, registrations_removeAll_none e, fun key => ?_⟩
  · rw [registrations_removeAll_some, if_pos (.inr rfl)]
  · have same := (frame_removeAll named e).others key other
    exact ⟨registrations_congr same, count_congr same⟩
  · rw [registrations_removeAll_some, if_pos (.inl rfl)]

end Emitter

namespace Session
namespace Emitter

/-- A listener for the event with the empty name and one for `x`, the
removal of the empty name's registrations, and a count of `x`'s. -/
def emptyNameScript : List (Op Nat) :=
  [.on "" "a" none, .on "x" "b" none, .removeAll (some ""), .count "x"]

/-- Removing the registrations of the event with the empty name removes
those of `x` too: the count of `x` that follows is zero. -/
theorem empty_name_removes_every_event :
    (run emptyNameScript).toOption.map (·.map (·.answer)) =
      some [.flag true, .flag true, .flag true, .count 0] := by
  have empty : inherited? "" = none := rfl
  have named : inherited? "x" = none := rfl
  simp [run, emptyNameScript, step, runOp_on, runOp_removeAll, runOp_count, HttpStub.Emitter.on,
    HttpStub.Emitter.append_ordinary empty, HttpStub.Emitter.append_ordinary named,
    HttpStub.Emitter.count_ordinary named, State.remember, HttpStub.Emitter.removeAll]
  exact ⟨_, rfl, rfl⟩

end Emitter
end Session
end HttpStub
