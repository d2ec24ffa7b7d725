import HttpStub.Log.Level

/-!
# Layered loggers

A logger is a chain of layers over a store.  A prefix layer puts `[p] ` in
front of the message; a filter layer drops calls below its floor, and a
filter whose floor is not a known level passes errors only.  The first
layer of a chain sits next to the store and the last one receives the
call, so a call passes through the layers from last to first.
-/

namespace HttpStub

/-- One layer of a logger. -/
inductive LogLayer where
  | prefixed (label : String)
  | filtered (floor : Option LogLevel)
  deriving DecidableEq, Repr

namespace LogLayer

/-- Whether a filter with this floor passes a call at `level`.  Errors
always pass. -/
def passes (floor : Option LogLevel) (level : LogLevel) : Bool :=
  level == .error || floor.any (·.rank ≤ level.rank)

/-- What a layer hands on for a call: the message it passes down, or
`none` when it drops the call. -/
def relay (layer : LogLayer) (level : LogLevel) (message : String) : Option String :=
  match layer with
  | .prefixed label => some s!"[{label}] {message}"
  | .filtered floor => if passes floor level then some message else none

end LogLayer

/-- The message that reaches the store for a call through a chain, listed
from the store outwards, or `none` when a layer drops it. -/
def LogLayer.chain (layers : List LogLayer) (level : LogLevel) (message : String) :
    Option String :=
  layers.foldr (fun layer acc => acc.bind (layer.relay level)) (some message)

end HttpStub
