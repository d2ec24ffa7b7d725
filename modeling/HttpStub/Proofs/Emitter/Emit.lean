import HttpStub.Session.Emitter
import HttpStub.Proofs.Emitter.Registrations

/-!
# Emitting from a snapshot

An emit takes the registrations of its event once, when it begins, and calls
them in order, each with the emit's arguments, whatever the listeners do to
the emitter meanwhile.  Listeners act through the same four mutually
recursive functions, so what each primitive change does carries over to
every operation, however deep the nesting (`ran_of_ok`, by the functions'
own induction principle): the calls recorded only grow, each with no more
room than the operation had, and every property of emitters that every
change keeps still holds.

For an event that no plain object inherits, an emit's recorded calls are
therefore its snapshot's listeners, each with the emit's arguments and made
with the emit's own room, with the calls nested inside each between them
(`emit_calls_snapshot`); counting, registering and removing do what their
names say (`ordinary_operations`).  Under a name that plain objects inherit,
such as `hasOwnProperty`, a new emitter already counts a listener
(`inherited_name_counts_one`).

A one-shot registration that a nested emit, started by an earlier listener,
has called is still in the outer emit's snapshot, and the outer emit calls it
again (`once_listener_called_twice`).  What does hold is that no emit that
begins after the call finds it (`once_gone_after_call`), in every emitter a
session reaches.
-/

namespace HttpStub
namespace Session
namespace Emitter

variable {α : Type}

/-! ## One operation -/

@[simp] theorem emitter_remember (s : State α) (l : String) (acts : Option (List (Op α))) :
    (s.remember l acts).emitter = s.emitter := by
  cases acts <;> rfl

@[simp] theorem calls_remember (s : State α) (l : String) (acts : Option (List (Op α))) :
    (s.remember l acts).calls = s.calls := by
  cases acts <;> rfl

theorem runOp_on (d : Nat) (s : State α) (event l : String) (acts : Option (List (Op α))) :
    runOp d s (.on event l acts) =
      s.emitter.on event l >>= fun emitter => pure ({ s.remember l acts with emitter }, .flag true) := by
  rw [runOp, emitter_remember]

theorem runOp_once (d : Nat) (s : State α) (event l : String) (acts : Option (List (Op α))) :
    runOp d s (.once event l acts) =
      s.emitter.once event l >>= fun emitter => pure ({ s.remember l acts with emitter }, .flag true) := by
  rw [runOp, emitter_remember]

theorem runOp_off (d : Nat) (s : State α) (event l : String) :
    runOp d s (.off event l) =
      s.emitter.off event l >>= fun emitter => pure ({ s with emitter }, .flag true) := by
  rw [runOp]

theorem runOp_emit (d : Nat) (s : State α) (event : String) (args : List α) :
    runOp d s (.emit event args) =
      s.emitter.snapshot event >>= fun snapshot =>
        if snapshot.isEmpty then pure (s, .flag false)
        else fireAll d event args snapshot s >>= fun s' => pure (s', .flag true) := by
  rw [runOp]

theorem runOp_removeAll (d : Nat) (s : State α) (event : Option String) :
    runOp d s (.removeAll event) = pure ({ s with emitter := s.emitter.removeAll event }, .flag true) := by
  rw [runOp]

theorem runOp_count (d : Nat) (s : State α) (event : String) :
    runOp d s (.count event) = pure (s, .count (s.emitter.count event)) := by
  rw [runOp]

theorem fireAll_nil (d : Nat) (event : String) (args : List α) (s : State α) :
    fireAll d event args [] s = pure s := by
  rw [fireAll]

theorem fireAll_cons (d : Nat) (event : String) (args : List α) (r : Registration String)
    (rs : List (Registration String)) (s : State α) :
    fireAll d event args (r :: rs) s =
      call d r.listener args { s with emitter := (s.emitter.fire event r).1 } >>= fireAll d event args rs := by
  rw [fireAll]
  cases r <;> rfl

theorem call_zero (l : String) (args : List α) (s : State α) :
    call 0 l args s = .error stackOverflow := by
  rw [call]

theorem call_succ (d : Nat) (l : String) (args : List α) (s : State α) :
    call (d + 1) l args s =
      runNested d ((s.actions.lookup l).getD []) { s with calls := s.calls.push ⟨l, args, d + 1⟩ } := by
  rw [call]

theorem runNested_nil (d : Nat) (s : State α) : runNested d [] s = pure s := by
  rw [runNested]

theorem runNested_cons (d : Nat) (op : Op α) (ops : List (Op α)) (s : State α) :
    runNested d (op :: ops) s = runOp d s op >>= fun p => runNested d ops p.1 := by
  rw [runNested]

/-! ## What every run does -/

/-- A property of emitters that every change a session makes keeps. -/
structure Kept (P : HttpStub.Emitter String → Prop) : Prop where
  on : ∀ {e e' : HttpStub.Emitter String} {event l : String}, e.on event l = .ok e' → P e → P e'
  once : ∀ {e e' : HttpStub.Emitter String} {event l : String}, e.once event l = .ok e' → P e → P e'
  withdraw : ∀ e event r, P e → P (e.withdraw event r)
  removeAll : ∀ e event, P e → P (e.removeAll event)

/-- What running some of a session's functions from `s` to `s'` with room
`d` does: it records more calls, each made with room `d` at most, and keeps
every property of emitters that every change keeps. -/
structure Ran (d : Nat) (s s' : State α) : Prop where
  records : ∃ more : List (Call α), s'.calls.toList = s.calls.toList ++ more ∧ ∀ c ∈ more, c.room ≤ d
  keeps : ∀ P, Kept P → P s.emitter → P s'.emitter

namespace Ran

variable {d : Nat} {s s₁ s₂ : State α}

theorem refl (d : Nat) (s : State α) : Ran d s s :=
  ⟨⟨[], by simp, by simp⟩, fun _ _ p => p⟩

theorem trans (first : Ran d s s₁) (second : Ran d s₁ s₂) : Ran d s s₂ := by
  obtain ⟨more, calls, within⟩ := first.records
  obtain ⟨more', calls', within'⟩ := second.records
  refine ⟨⟨more ++ more', by rw [calls', calls, List.append_assoc], fun c mem => ?_⟩,
    fun P kept p => second.keeps P kept (first.keeps P kept p)⟩
  rcases List.mem_append.1 mem with old | new
  · exact within c old
  · exact within' c new

theorem deeper (ran : Ran d s s₁) : Ran (d + 1) s s₁ := by
  obtain ⟨more, calls, within⟩ := ran.records
  exact ⟨⟨more, calls, fun c mem => Nat.le_succ_of_le (within c mem)⟩, ran.keeps⟩

/-- A change of the emitter alone that every kept property survives. -/
theorem emitter {e : HttpStub.Emitter String}
    (kept : ∀ P, Kept P → P s.emitter → P e) : Ran d s { s with emitter := e } :=
  ⟨⟨[], by simp, by simp⟩, kept⟩

/-- Recording one call with room `d`. -/
theorem record (d : Nat) (s : State α) (l : String) (args : List α) :
    Ran d s { s with calls := s.calls.push ⟨l, args, d⟩ } :=
  ⟨⟨[⟨l, args, d⟩], by simp, by simp⟩, fun _ _ p => p⟩

end Ran

theorem Kept.fire {P : HttpStub.Emitter String → Prop} (kept : Kept P) {e : HttpStub.Emitter String}
    (event : String) (r : Registration String) (p : P e) : P (e.fire event r).1 := by
  cases r with
  | plain l => exact p
  | once t l => exact kept.withdraw e event _ p

/-- Every one of the session's functions that runs to its end does what `Ran`
says, however deep its listeners nest. -/
theorem ran_of_ok :
    (∀ d s (op : Op α) s' a, runOp d s op = .ok (s', a) → Ran d s s') ∧
    (∀ d event (args : List α) rs s s', fireAll d event args rs s = .ok s' → Ran d s s') ∧
    (∀ d l (args : List α) s s', call d l args s = .ok s' → Ran d s s') ∧
    (∀ d (ops : List (Op α)) s s', runNested d ops s = .ok s' → Ran d s s') := by
  refine runOp.mutual_induct
    (fun d s op => ∀ s' a, runOp d s op = .ok (s', a) → Ran d s s')
    (fun d event args rs s => ∀ s', fireAll d event args rs s = .ok s' → Ran d s s')
    (fun d l args s => ∀ s', call d l args s = .ok s' → Ran d s s')
    (fun d ops s => ∀ s', runNested d ops s = .ok s' → Ran d s s')
    ?on ?once ?off ?emit ?removeAll ?count ?done ?fire ?overflow ?call ?nestedDone ?nested
  case on =>
    intro d s event l acts s' a h
    rw [runOp_on] at h
    obtain ⟨e, ok, done⟩ := bind_eq_ok h
    cases done
    exact ⟨⟨[], by simp, by simp⟩, fun P kept p => kept.on ok p⟩
  case once =>
    intro d s event l acts s' a h
    rw [runOp_once] at h
    obtain ⟨e, ok, done⟩ := bind_eq_ok h
    cases done
    exact ⟨⟨[], by simp, by simp⟩, fun P kept p => kept.once ok p⟩
  case off =>
    intro d s event l s' a h
    rw [runOp_off] at h
    obtain ⟨e, ok, done⟩ := bind_eq_ok h
    cases done
    rw [HttpStub.Emitter.off_ok ok]
    exact Ran.emitter fun P kept p => kept.withdraw _ _ _ p
  case emit =>
    intro d s event args ih s' a h
    rw [runOp_emit] at h
    obtain ⟨snapshot, -, rest⟩ := bind_eq_ok h
    split at rest
    · cases rest
      exact Ran.refl d s
    · obtain ⟨t, fired, done⟩ := bind_eq_ok rest
      cases done
      exact ih snapshot _ fired
  case removeAll =>
    intro d s event s' a h
    rw [runOp_removeAll] at h
    cases h
    exact Ran.emitter fun P kept p => kept.removeAll _ _ p
  case count =>
    intro d s event s' a h
    rw [runOp_count] at h
    cases h
    exact Ran.refl d s
  case done =>
    intro d event args s s' h
    rw [fireAll] at h
    cases h
    exact Ran.refl d s
  case fire =>
    intro d event args r rs s emitter l fired ihCall ihRest s' h
    rw [fireAll, fired] at h
    obtain ⟨t, called, rest⟩ := bind_eq_ok h
    have prepared : Ran d s { s with emitter } :=
      Ran.emitter fun P kept p => by simpa only [fired] using kept.fire event r p
    exact (prepared.trans (ihCall t called)).trans (ihRest t s' rest)
  case overflow =>
    intro l args s s' h
    rw [call] at h
    cases h
  case call =>
    intro l args s d _ ih s' h
    rw [call_succ] at h
    exact (Ran.record (d + 1) s l args).trans (ih s' h).deeper
  case nestedDone =>
    intro d s s' h
    rw [runNested] at h
    cases h
    exact Ran.refl d s
  case nested =>
    intro d op ops s ihOp ihRest s' h
    rw [runNested] at h
    obtain ⟨⟨t, a⟩, ran, rest⟩ := bind_eq_ok h
    exact (ihOp t a ran).trans (ihRest t s' rest)

/-! ## Emit -/

/-- The calls a run of an emit's snapshot records: each registration's
listener with the emit's arguments and room, and after it the calls nested
inside it, made with less room. -/
theorem fireAll_calls {d : Nat} {event : String} {args : List α} :
    ∀ {rs : List (Registration String)} {s s' : State α}, fireAll d event args rs s = .ok s' →
      ∃ nested : List (List (Call α)), nested.length = rs.length ∧
        s'.calls.toList = s.calls.toList ++
          (List.zipWith (fun r n => (⟨r.listener, args, d⟩ : Call α) :: n) rs nested).flatten ∧
        ∀ n ∈ nested, ∀ c ∈ n, c.room < d
  | [], s, s', ran => by
    rw [fireAll] at ran
    cases ran
    exact ⟨[], rfl, by simp, by simp⟩
  | r :: rs, s, s', ran => by
    rw [fireAll_cons] at ran
    obtain ⟨t, called, rest⟩ := bind_eq_ok ran
    obtain ⟨nested, length, calls, below⟩ := fireAll_calls rest
    cases d with
    | zero =>
      rw [call_zero] at called
      cases called
    | succ d =>
      rw [call_succ] at called
      obtain ⟨more, grown, within⟩ := (ran_of_ok.2.2.2 d _ _ _ called).records
      refine ⟨more :: nested, by simp [length], ?_, ?_⟩
      · rw [calls, grown]
        simp
      · intro n mem c inside
        rcases List.mem_cons.1 mem with rfl | other
        · exact Nat.lt_succ_of_le (within c inside)
        · exact below n other c inside

/-- For an event that no plain object inherits, an emit that runs to its end
answers whether the event had registrations when it began, and the calls it
records are those registrations' listeners in order, each with the emit's
arguments and room, and after each the calls nested inside it, made with
less room.  Registrations added meanwhile are not called, and those removed
meanwhile still are. -/
theorem emit_calls_snapshot {d : Nat} {s s' : State α} {event : String} {args : List α}
    {a : Answer} (ordinary : inherited? event = none) (ran : runOp d s (.emit event args) = .ok (s', a)) :
    a = .flag !(s.emitter.registrations event).isEmpty ∧
      ∃ nested : List (List (Call α)), nested.length = (s.emitter.registrations event).length ∧
        s'.calls.toList = s.calls.toList ++
          (List.zipWith (fun r n => (⟨r.listener, args, d⟩ : Call α) :: n)
            (s.emitter.registrations event) nested).flatten ∧
        ∀ n ∈ nested, ∀ c ∈ n, c.room < d := by
  rw [runOp_emit] at ran
  obtain ⟨snapshot, taken, rest⟩ := bind_eq_ok ran
  rw [HttpStub.Emitter.snapshot_ordinary ordinary] at taken
  cases taken
  by_cases empty : (s.emitter.registrations event).isEmpty
  · have none : s.emitter.registrations event = [] := List.isEmpty_iff.1 empty
    rw [if_pos empty] at rest
    cases rest
    exact ⟨by rw [empty]; rfl, [], by rw [none]; rfl, by simp, by simp⟩
  · rw [if_neg empty] at rest
    obtain ⟨t, fired, done⟩ := bind_eq_ok rest
    cases done
    exact ⟨by rw [Bool.not_eq_true] at empty; rw [empty]; rfl, fireAll_calls fired⟩

/-- For an event that no plain object inherits, counting gives the number of
registrations, `on` and `once` each append one, and `off` removes the
earliest plain registration of that listener only, never a one-shot one. -/
theorem ordinary_operations (d : Nat) (s : State α) {event : String}
    (ordinary : inherited? event = none) (l : String) (acts : Option (List (Op α))) :
    runOp d s (.count event) = .ok (s, .count (s.emitter.registrations event).length) ∧
    (∃ s', runOp d s (.on event l acts) = .ok (s', .flag true) ∧
      s'.emitter.registrations event = s.emitter.registrations event ++ [.plain l]) ∧
    (∃ s', runOp d s (.once event l acts) = .ok (s', .flag true) ∧
      s'.emitter.registrations event = s.emitter.registrations event ++ [.once s.emitter.nextTicket l]) ∧
    (∃ s', runOp d s (.off event l) = .ok (s', .flag true) ∧
      s'.emitter.registrations event = (s.emitter.registrations event).erase (.plain l)) := by
  have appended := fun (r : Registration String) =>
    HttpStub.Emitter.append_ordinary (e := s.emitter) ordinary r
  have registered : runOp d s (.on event l acts) = .ok ({ s.remember l acts with
      emitter := s.emitter.update event (s.emitter.registrations event ++ [.plain l]) }, .flag true) := by
    rw [runOp_on, HttpStub.Emitter.on, appended]
    rfl
  have registeredOnce : runOp d s (.once event l acts) = .ok ({ s.remember l acts with
      emitter := { s.emitter.update event (s.emitter.registrations event ++ [.once s.emitter.nextTicket l]) with
        nextTicket := s.emitter.nextTicket + 1 } }, .flag true) := by
    rw [runOp_once, HttpStub.Emitter.once, appended]
    rfl
  have removed : runOp d s (.off event l) =
      .ok ({ s with emitter := s.emitter.withdraw event (.plain l) }, .flag true) := by
    rw [runOp_off, HttpStub.Emitter.off_ordinary ordinary]
    rfl
  refine ⟨by rw [runOp_count, HttpStub.Emitter.count_ordinary ordinary]; rfl, ⟨_, registered, by simp⟩,
    ⟨_, registeredOnce, ?_⟩, ⟨_, removed, by simp⟩⟩
  show (HttpStub.Emitter.update s.emitter event _).registrations event = _
  simp

/-- A script that counts the listeners of `hasOwnProperty` on a new emitter. -/
def inheritedCountScript : List (Op Nat) := [.count "hasOwnProperty"]

/-- A new emitter counts one listener for `hasOwnProperty`, with no
registration: the one parameter of the method every plain object inherits
under that name. -/
theorem inherited_name_counts_one :
    (run inheritedCountScript).toOption.map (·.map (·.answer)) = some [.count 1] := by
  simp only [run, inheritedCountScript, List.foldlM_cons, List.foldlM_nil, step, runOp_count]
  decide

/-! ## One-shot registrations -/

/-- The emitters a session can reach from a new one, through the changes it
makes. -/
inductive Reachable : HttpStub.Emitter String → Prop
  | empty : Reachable {}
  | on {e e' : HttpStub.Emitter String} {event l : String} : Reachable e → e.on event l = .ok e' → Reachable e'
  | once {e e' : HttpStub.Emitter String} {event l : String} :
      Reachable e → e.once event l = .ok e' → Reachable e'
  | withdraw {e : HttpStub.Emitter String} (event : String) (r : Registration String) :
      Reachable e → Reachable (e.withdraw event r)
  | removeAll {e : HttpStub.Emitter String} (event : Option String) :
      Reachable e → Reachable (e.removeAll event)

theorem kept_reachable : Kept Reachable where
  on ok reach := reach.on ok
  once ok reach := reach.once ok
  withdraw _ event r reach := reach.withdraw event r
  removeAll _ event reach := reach.removeAll event

/-- Every emitter a session reaches has fresh tickets. -/
theorem Reachable.fresh {e : HttpStub.Emitter String} (reach : Reachable e) : e.Fresh := by
  induction reach with
  | empty => exact HttpStub.Emitter.fresh_empty
  | on _ ok fresh => exact fresh.of_shrinks (HttpStub.Emitter.shrinks_on ok)
  | once _ ok fresh => exact fresh.once ok
  | withdraw event r _ fresh => exact fresh.of_shrinks (HttpStub.Emitter.shrinks_withdraw _ event r)
  | removeAll event _ fresh => exact fresh.of_shrinks (HttpStub.Emitter.shrinks_removeAll _ event)

theorem kept_spent (t : Nat) : Kept (HttpStub.Emitter.Spent t) where
  on ok spent := spent.of_shrinks (HttpStub.Emitter.shrinks_on ok)
  once ok spent := spent.once ok
  withdraw _ event r spent := spent.of_shrinks (HttpStub.Emitter.shrinks_withdraw _ event r)
  removeAll _ event spent := spent.of_shrinks (HttpStub.Emitter.shrinks_removeAll _ event)

/-- The emitter of every state a script passes between its operations is one
a session reaches. -/
theorem reachable_of_steps {ops : List (Op α)} {acc acc' : State α × Array (Report α)}
    (reach : Reachable acc.1.emitter) (ran : ops.foldlM step acc = .ok acc') :
    Reachable acc'.1.emitter := by
  induction ops generalizing acc with
  | nil =>
    cases ran
    exact reach
  | cons op ops ih =>
    rw [List.foldlM_cons] at ran
    obtain ⟨mid, stepped, rest⟩ := bind_eq_ok ran
    obtain ⟨⟨s, a⟩, ran', done⟩ := bind_eq_ok stepped
    cases done
    exact ih ((ran_of_ok.1 _ _ op s a ran').keeps _ kept_reachable reach) rest

/-- A one-shot registration that is called while it is still registered is
never called again by an emit that begins afterwards: whatever operations
follow, nested in its listener or not, no later state holds its ticket. -/
theorem once_gone_after_call {d : Nat} {s s' : State α} {event : String} {t : Nat} {l : String}
    {ops : List (Op α)} (fresh : s.emitter.Fresh)
    (held : .once t l ∈ s.emitter.registrations event)
    (later : runNested d ops { s with emitter := (s.emitter.fire event (.once t l)).1 } = .ok s')
    (key l' : String) : .once t l' ∉ s'.emitter.registrations key := by
  have spent := (ran_of_ok.2.2.2 d ops _ s' later).keeps _ (kept_spent t) (fresh.spent_fire held)
  exact fun still => spent.absent key (HttpStub.Emitter.ticket_mem_ticketsOf still)

/-- Two one-shot registrations for one event, the first of whose listeners
emits the event again, and an emit of it. -/
def twiceScript : List (Op Nat) :=
  [.once "e" "a" (some [.emit "e" []]), .once "e" "f" none, .emit "e" []]

/-- The nested emit calls `f` and withdraws it, but the outer emit's snapshot
still holds it, so `f` is called twice for one registration. -/
theorem once_listener_called_twice :
    ((run twiceScript).toOption.map (·.map fun r => (r.answer, r.calls))) =
      some [(.flag true, []), (.flag true, []),
        (.flag true, [("a", []), ("f", []), ("f", [])])] := by
  have named : inherited? "e" = none := rfl
  simp [run, twiceScript, step, runOp_once, runOp_emit, fireAll_cons, fireAll_nil, call_succ,
    runNested_nil, runNested_cons, depthBudget, HttpStub.Emitter.once, HttpStub.Emitter.append_ordinary named,
    HttpStub.Emitter.snapshot_ordinary named, List.lookup_cons, State.remember, Registration.listener,
    HttpStub.Emitter.fire, HttpStub.Emitter.update, HttpStub.Emitter.registrations, HttpStub.Emitter.withdraw]
  exact ⟨_, rfl, rfl⟩

end Emitter
end Session
end HttpStub
