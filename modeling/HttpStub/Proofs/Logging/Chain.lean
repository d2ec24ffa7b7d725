import HttpStub.Session.LogStore

namespace HttpStub

/-!
# Calls through a chain of logger layers

A chain is listed from the store outwards: its first layer writes to the
store and its last layer takes the call.  A call is relayed inwards, layer
by layer, so each prefix layer puts its label in front of what the layers
outside it made of the message.  The labels therefore stand in the chain's
own order, the store's neighbour first: through the layers `[a]`, then
`[b]`, a message `m` arrives as `[a] [b] m`.  A filter layer either drops the
call or hands it on unchanged, so what arrives does not depend on where the
filters stand.

`LogLayer.chain_eq` says this for the message: the chain hands the store the
stamped message exactly when it admits the call, that is when the call is an
error or every filter has a floor at or below the call's level.  The main
statement, `log_through_chain`, says it for the store: a call through a
chain is one plain `add` of the call's level, the stamped message and the
arguments as given, or leaves the store and its subscribers untouched.
-/

namespace LogLayer

/-- The label of a prefix layer. -/
def label? : LogLayer → Option String
  | .prefixed label => some label
  | .filtered _ => none

/-- The floor of a filter layer; a floor that names no level is `none`. -/
def floor? : LogLayer → Option (Option LogLevel)
  | .prefixed _ => none
  | .filtered floor => some floor

/-- A message as a chain hands it to the store: each label of the chain, in
the chain's order, written `[label] `, then the message. -/
def stamp (layers : List LogLayer) (message : String) : String :=
  (layers.filterMap label?).foldr (fun label rest => "[" ++ label ++ "] " ++ rest) message

/-- Whether a chain lets a call at `level` through: an error always, any
other call when every filter of the chain has a floor at or below it. -/
def Admits (layers : List LogLayer) (level : LogLevel) : Prop :=
  level = .error ∨ ∀ floor ∈ layers.filterMap floor?, ∃ l ∈ floor, l.rank ≤ level.rank

instance (layers : List LogLayer) (level : LogLevel) : Decidable (Admits layers level) :=
  inferInstanceAs (Decidable (_ ∨ _))

@[simp] theorem stamp_nil (message : String) : stamp [] message = message := rfl

@[simp] theorem stamp_prefixed (label : String) (layers : List LogLayer) (message : String) :
    stamp (.prefixed label :: layers) message = "[" ++ label ++ "] " ++ stamp layers message := rfl

@[simp] theorem stamp_filtered (floor : Option LogLevel) (layers : List LogLayer) (message : String) :
    stamp (.filtered floor :: layers) message = stamp layers message := rfl

@[simp] theorem chain_nil (level : LogLevel) (message : String) : chain [] level message = some message :=
  rfl

@[simp] theorem chain_cons (layer : LogLayer) (layers : List LogLayer) (level : LogLevel) (message : String) :
    chain (layer :: layers) level message = (chain layers level message).bind (layer.relay level) :=
  rfl

@[simp] theorem relay_prefixed (label : String) (level : LogLevel) (message : String) :
    (LogLayer.prefixed label).relay level message = some ("[" ++ label ++ "] " ++ message) :=
  rfl

theorem admits_nil (level : LogLevel) : Admits [] level :=
  .inr fun _ none => by simp at none

@[simp] theorem admits_prefixed (label : String) (layers : List LogLayer) (level : LogLevel) :
    Admits (.prefixed label :: layers) level ↔ Admits layers level := by
  simp [Admits, floor?]

/-- A filter lets a call through the rest of the chain exactly when it
passes the call itself. -/
@[simp] theorem admits_filtered (floor : Option LogLevel) (layers : List LogLayer) (level : LogLevel) :
    Admits (.filtered floor :: layers) level ↔ passes floor level = true ∧ Admits layers level := by
  by_cases error : level = .error
  · simp [Admits, passes, error]
  · have plain : (level == .error) = false := by simpa using error
    cases floor <;> simp [Admits, passes, floor?, error, plain]

/-- What a chain hands the store: the stamped message when it admits the
call, nothing otherwise. -/
theorem chain_eq (layers : List LogLayer) (level : LogLevel) (message : String) :
    chain layers level message = if Admits layers level then some (stamp layers message) else none := by
  induction layers with
  | nil => simp [admits_nil]
  | cons layer layers ih =>
    rw [chain_cons, ih]
    by_cases admitted : Admits layers level
    · cases layer with
      | prefixed label => simp [admitted]
      | filtered floor =>
        by_cases passed : passes floor level = true <;> simp [admitted, passed, relay]
    · cases layer <;> simp [admitted]

example : chain [.prefixed "a", .filtered (some .warn), .prefixed "b"] .warn "m" = some "[a] [b] m" := by
  decide

example : chain [.prefixed "a", .filtered (some .warn)] .info "m" = none := by decide

end LogLayer

namespace Session.LogStore

variable {α : Type}

/-- A call through a chain of layers records exactly what one `add` of the
call's level, the stamped message and the unchanged arguments records, with
the same deliveries to subscribers; a call the chain does not admit changes
nothing and reaches no subscriber. -/
theorem log_through_chain (st : State α) (chain : List LogLayer) (level : LogLevel) (message : String)
    (args : List α) :
    step st (.log chain level message args) =
      if LogLayer.Admits chain level then step st (.add level.name (LogLayer.stamp chain message) args)
      else (st, ⟨none, st.store.size, []⟩) := by
  by_cases admitted : LogLayer.Admits chain level <;> simp [step, onStore, LogLayer.chain_eq, admitted]

end Session.LogStore
end HttpStub
