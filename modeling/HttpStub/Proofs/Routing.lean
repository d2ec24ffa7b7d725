import Mathlib.Data.List.TakeWhile
import HttpStub.Http.Plan

/-!
# Routing by exact path

A table answers a target with the first of its routes, in table order, whose
pattern is the target's path, and with its fallback when it has none
(`RouteTable.lookup_eq_iff`).  Duplicate patterns are allowed: the earlier
route shadows the later one.  Patterns are compared as whole strings, with
no wildcard.

The path of a target is its part before the first question mark
(`pathOf_spec`).  It holds no question mark, so taking it twice changes
nothing (`pathOf_pathOf`).  Hence a target and its path are routed alike.
This is why the server may route a request by its path although routing
strips the query again.  It also follows that a route whose pattern holds a
question mark never matches.
-/

namespace HttpStub

/-! ## The path of a target -/

theorem toList_pathOf (target : String) :
    (pathOf target).toList = target.toList.takeWhile (· != '?') :=
  String.toList_ofList

theorem question_not_mem_pathOf (target : String) : '?' ∉ (pathOf target).toList := by
  rw [toList_pathOf]
  intro mem
  simpa using List.mem_takeWhile_imp mem

/-- A target is its path followed by nothing, or by a question mark and the
rest: the path is the part before the first question mark. -/
theorem pathOf_spec (target : String) :
    ∃ rest, target.toList = (pathOf target).toList ++ rest ∧ '?' ∉ (pathOf target).toList ∧
      (rest = [] ∨ rest.head? = some '?') := by
  refine ⟨target.toList.dropWhile (· != '?'), ?_, question_not_mem_pathOf target, ?_⟩
  · rw [toList_pathOf, List.takeWhile_append_dropWhile]
  · cases rest : target.toList.dropWhile (· != '?') with
    | nil => exact .inl rfl
    | cons c cs =>
      have stop := List.head_dropWhile_not (· != '?') (l := target.toList) (by simp [rest])
      simp only [rest, List.head_cons, bne_eq_false_iff_eq] at stop
      exact .inr (by rw [stop]; rfl)

theorem pathOf_of_question_not_mem {s : String} (plain : '?' ∉ s.toList) : pathOf s = s := by
  apply String.toList_injective
  rw [toList_pathOf, List.takeWhile_eq_self_iff]
  intro c mem
  have differ : c ≠ '?' := fun same => plain (same ▸ mem)
  simpa using differ

@[simp] theorem pathOf_pathOf (target : String) : pathOf (pathOf target) = pathOf target :=
  pathOf_of_question_not_mem (question_not_mem_pathOf target)

/-- The path of a request read from bytes is the path of its target, also for
the empty request. -/
theorem Request.path_eq_pathOf {raw : List UInt8} {req : Request}
    (parsed : Request.parse? raw = some req) : req.path = pathOf req.line.target := by
  unfold Request.parse? at parsed
  split at parsed
  · cases parsed
    rfl
  · obtain ⟨line, -, built⟩ := Option.map_eq_some_iff.1 parsed
    subst built
    rfl

/-! ## The route of a path -/

namespace RouteTable

/-- `r` is the first of `routes` whose pattern is `path`. -/
def FirstMatch (routes : List Route) (path : String) (r : Route) : Prop :=
  ∃ pre post, routes = pre ++ r :: post ∧ r.pattern = path ∧ ∀ q ∈ pre, q.pattern ≠ path

theorem find?_eq_some_iff_firstMatch (routes : List Route) (path : String) (r : Route) :
    routes.find? (·.pattern == path) = some r ↔ FirstMatch routes path r := by
  simp only [List.find?_eq_some_iff_append, beq_iff_eq, Bool.not_eq_true', beq_eq_false_iff_ne,
    FirstMatch]
  constructor
  · rintro ⟨matched, pre, post, split, before⟩
    exact ⟨pre, post, split, matched, before⟩
  · rintro ⟨pre, post, split, matched, before⟩
    exact ⟨matched, pre, post, split, before⟩

/-- The route for a path is the first route of that pattern, or the fallback
when the table has none. -/
theorem lookup_eq_iff (t : RouteTable) (path : String) (r : Route) :
    t.lookup path = r ↔
      FirstMatch t.routes path r ∨ ((∀ q ∈ t.routes, q.pattern ≠ path) ∧ r = t.fallback) := by
  rw [lookup, ← find?_eq_some_iff_firstMatch]
  cases found : t.routes.find? (·.pattern == path) with
  | none =>
    have unmatched : ∀ q ∈ t.routes, q.pattern ≠ path := by
      simpa [List.find?_eq_none] using found
    simp only [Option.getD_none, reduceCtorEq, false_or]
    exact ⟨fun same => ⟨unmatched, same.symm⟩, fun both => both.2.symm⟩
  | some first =>
    have matched : first.pattern = path := by simpa using List.find?_some found
    have member : first ∈ t.routes := List.mem_of_find?_eq_some found
    simp only [Option.getD_some, Option.some.injEq]
    constructor
    · exact .inl
    · rintro (same | ⟨unmatched, -⟩)
      · exact same
      · exact absurd matched (unmatched first member)

@[simp] theorem route_pathOf (t : RouteTable) (target : String) :
    t.route (pathOf target) = t.route target := by
  rw [route, route, pathOf_pathOf]

/-- The route a request read from bytes is answered by: its path, which the
server routes, and its raw target are routed alike, and looking the path up
directly finds that route too. -/
theorem route_path (t : RouteTable) {raw : List UInt8} {req : Request}
    (parsed : Request.parse? raw = some req) :
    t.route req.path = t.route req.line.target ∧ t.lookup req.path = t.route req.line.target := by
  rw [Request.path_eq_pathOf parsed, route_pathOf]
  exact ⟨rfl, rfl⟩

/-- Routing a target: the first route of the table, in table order, whose
pattern equals the target's path (its part before the first question mark),
or the fallback when none does.  A target is routed as its path is, also
the target of a request read from bytes, whose path the server routes; and
a route whose pattern holds a question mark is only ever answered as the
fallback. -/
theorem route_first_exact_match (t : RouteTable) (target : String) :
    (∃ rest, target.toList = (pathOf target).toList ++ rest ∧ '?' ∉ (pathOf target).toList ∧
      (rest = [] ∨ rest.head? = some '?')) ∧
    (∀ r, t.route target = r ↔
      FirstMatch t.routes (pathOf target) r ∨
        ((∀ q ∈ t.routes, q.pattern ≠ pathOf target) ∧ r = t.fallback)) ∧
    t.route (pathOf target) = t.route target ∧
    (∀ raw req, Request.parse? raw = some req →
      t.route req.path = t.route req.line.target ∧ t.lookup req.path = t.route req.line.target) ∧
    ('?' ∉ (t.route target).pattern.toList ∨ t.route target = t.fallback) := by
  refine ⟨pathOf_spec target, fun r => lookup_eq_iff t _ r, route_pathOf t target,
    fun _ _ parsed => route_path t parsed, ?_⟩
  rcases (lookup_eq_iff t (pathOf target) _).1 rfl with ⟨-, -, -, matched, -⟩ | ⟨-, fallback⟩
  · left
    rw [route, matched]
    exact question_not_mem_pathOf target
  · exact .inr fallback

/-- Of two routes for one path, the first answers, whatever the query. -/
example : (RouteTable.mk [⟨"/a", 200, "t", "first"⟩, ⟨"/a", 201, "t", "second"⟩]
    ⟨"*", 404, "t", "none"⟩).route "/a?b=1" = ⟨"/a", 200, "t", "first"⟩ := by
  decide

end RouteTable

/-- A request read from bytes that the server answers is answered with the
route of its raw target. -/
theorem Plan.ofRequest_routes (policy : EmptyRequestPolicy) (t : RouteTable) {raw : List UInt8}
    {req : Request} (parsed : Request.parse? raw = some req) :
    Plan.ofRequest policy t (some req) = .dismiss ∨
      Plan.ofRequest policy t (some req) =
        .respond req.path (t.route req.line.target).response (Plan.summaryOf req.line) := by
  simp only [Plan.ofRequest]
  split
  · exact .inl rfl
  · rw [(RouteTable.route_path t parsed).2]
    exact .inr rfl

end HttpStub
