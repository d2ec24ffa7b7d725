import HttpStub.Emitter

/-!
# What an emitter holds

The registrations an emitter keeps for each event, as each operation leaves
them: `on` and `once` append, `off` and a one-shot registration that is
called remove the first equal one, and `removeAll` clears one event or all.
The table behind them is an association list that `update` rewrites in
place or extends; the lemmas below read it back through `registrations` and
`find`, so later proofs never look at the table.  A name that no plain
object inherits finds exactly the registrations held under it, so for such
a name every operation succeeds and the count is the number of
registrations.

One-shot registrations carry tickets, which stand for the distinct wrapper
functions they are.  `Fresh` says no ticket is held twice and every ticket
is below the next one to be handed out; `Spent t` says ticket `t` was handed
out and no registration holds it any more.  Every operation keeps both:
removals only drop tickets (`Shrinks`), and `once` hands out a new one.
-/

namespace HttpStub

theorem bind_eq_ok {ε β γ : Type} {x : Except ε β} {f : β → Except ε γ} {c : γ}
    (h : x >>= f = .ok c) : ∃ b, x = .ok b ∧ f b = .ok c := by
  cases x with
  | error e => cases h
  | ok b => exact ⟨b, rfl, h⟩

namespace Emitter

variable {ℓ : Type}

/-! ## The registrations of each event -/

theorem lookup_replace (table : List (String × List (Registration ℓ))) (event key : String)
    (rs : List (Registration ℓ)) :
    (table.map fun p => if p.1 == event then (event, rs) else p).lookup key =
      if key = event ∧ table.any (·.1 == event) then some rs else table.lookup key := by
  induction table with
  | nil => simp
  | cons p ps ih =>
    obtain ⟨name, regs⟩ := p
    by_cases named : name = event
    · subst named
      by_cases same : key = name
      · simp [same]
      · simp only [List.map_cons, beq_self_eq_true, if_true, List.lookup_cons,
          beq_eq_false_iff_ne.2 same, ih, same, false_and, if_false]
    · have other : (name == event) = false := beq_eq_false_iff_ne.2 named
      by_cases same : key = name
      · subst same
        simp [named]
      · simp only [List.map_cons, other, Bool.false_eq_true, if_false, List.lookup_cons,
          beq_eq_false_iff_ne.2 same, ih, List.any_cons, Bool.false_or]

theorem lookup_append_absent (table : List (String × List (Registration ℓ))) (event key : String)
    (rs : List (Registration ℓ)) (absent : table.any (·.1 == event) = false) :
    (table ++ [(event, rs)]).lookup key = if key = event then some rs else table.lookup key := by
  induction table with
  | nil =>
    by_cases same : key = event
    · simp [same]
    · simp [List.lookup_cons, beq_eq_false_iff_ne.2 same, same]
  | cons p ps ih =>
    obtain ⟨name, regs⟩ := p
    simp only [List.any_cons, Bool.or_eq_false_iff] at absent
    by_cases same : key = name
    · subst same
      have : key ≠ event := by simpa using absent.1
      simp [this]
    · simp only [List.cons_append, List.lookup_cons, beq_eq_false_iff_ne.2 same, ih absent.2]

theorem lookup_update (e : Emitter ℓ) (event key : String) (rs : List (Registration ℓ)) :
    (e.update event rs).table.lookup key = if key = event then some rs else e.table.lookup key := by
  unfold update
  split
  · rename_i named
    rw [lookup_replace]
    by_cases same : key = event <;> simp [same, named]
  · rename_i absent
    rw [lookup_append_absent _ _ _ _ (eq_false_of_ne_true absent)]

@[simp] theorem registrations_update (e : Emitter ℓ) (event key : String)
    (rs : List (Registration ℓ)) :
    (e.update event rs).registrations key = if key = event then rs else e.registrations key := by
  unfold registrations
  rw [lookup_update]
  split <;> rfl

theorem lookup_of_absent {table : List (String × List (Registration ℓ))} {event : String}
    (absent : table.any (·.1 == event) = false) : table.lookup event = none := by
  induction table with
  | nil => rfl
  | cons p ps ih =>
    obtain ⟨name, regs⟩ := p
    have facts : name ≠ event ∧ ps.any (·.1 == event) = false := by
      simpa only [List.any_cons, Bool.or_eq_false_iff, beq_eq_false_iff_ne] using absent
    simp only [List.lookup_cons, beq_eq_false_iff_ne.2 (Ne.symm facts.1), ih facts.2]

theorem registrations_of_absent {e : Emitter ℓ} {event : String}
    (absent : e.table.any (·.1 == event) = false) : e.registrations event = [] := by
  rw [registrations, lookup_of_absent absent]
  rfl

@[simp] theorem registrations_empty (key : String) :
    ({} : Emitter ℓ).registrations key = [] := rfl

/-! ## What a name finds -/

variable {e e' : Emitter ℓ} {event key : String}

theorem registrations_of_find_own {rs : List (Registration ℓ)} (found : e.find event = .own rs) :
    e.registrations event = rs := by
  unfold find at found
  unfold registrations
  split at found
  · next rs' held =>
    cases found
    rw [held]
    rfl
  · split at found <;> cases found

theorem registrations_of_find_none {f : Found ℓ} (found : e.find event = f)
    (unheld : ∀ rs, f ≠ .own rs) : e.registrations event = [] := by
  unfold find at found
  unfold registrations
  split at found
  · next rs held => exact absurd found.symm (unheld rs)
  · next absent =>
    rw [absent]
    rfl

theorem registrations_of_find_nothing (found : e.find event = .nothing) : e.registrations event = [] :=
  registrations_of_find_none found fun _ same => by cases same

theorem registrations_of_find_inherited {v : Inherited} (found : e.find event = .inherited v) :
    e.registrations event = [] :=
  registrations_of_find_none found fun _ same => by cases same

/-- A name that no plain object inherits finds the registrations held
under it, or nothing when there are none. -/
theorem find_ordinary (ordinary : inherited? event = none) :
    e.find event = .own (e.registrations event) ∨
      (e.find event = .nothing ∧ e.registrations event = []) := by
  unfold find registrations
  cases held : e.table.lookup event with
  | some rs => exact .inl rfl
  | none =>
    rw [ordinary]
    exact .inr ⟨rfl, rfl⟩

theorem find_congr (same : e'.table.lookup key = e.table.lookup key) : e'.find key = e.find key := by
  unfold find
  rw [same]

theorem registrations_congr (same : e'.table.lookup key = e.table.lookup key) :
    e'.registrations key = e.registrations key := by
  unfold registrations
  rw [same]

theorem count_congr (same : e'.table.lookup key = e.table.lookup key) : e'.count key = e.count key := by
  unfold count
  rw [find_congr same]

theorem count_ordinary (ordinary : inherited? event = none) :
    e.count event = (e.registrations event).length := by
  unfold count
  rcases find_ordinary (e := e) ordinary with found | ⟨found, empty⟩
  · rw [found]
  · rw [found, empty]
    rfl

theorem snapshot_ordinary (ordinary : inherited? event = none) :
    e.snapshot event = pure (e.registrations event) := by
  unfold snapshot
  rcases find_ordinary (e := e) ordinary with found | ⟨found, empty⟩
  · rw [found]
    rfl
  · rw [found, empty]
    rfl

theorem registrations_of_snapshot {rs : List (Registration ℓ)} (ok : e.snapshot event = .ok rs) :
    rs = e.registrations event := by
  unfold snapshot at ok
  split at ok
  · next rs' found =>
    cases ok
    exact (registrations_of_find_own found).symm
  · next found =>
    cases ok
    exact (registrations_of_find_inherited found).symm
  · next found =>
    cases ok
    exact (registrations_of_find_nothing found).symm
  · cases ok

theorem append_ok {r : Registration ℓ} (ok : e.append event r = .ok e') :
    e' = e.update event (e.registrations event ++ [r]) := by
  unfold append at ok
  split at ok
  · next rs found =>
    cases ok
    rw [registrations_of_find_own found]
  · next found =>
    cases ok
    rw [registrations_of_find_nothing found]
    rfl
  · cases ok

theorem append_ordinary (ordinary : inherited? event = none) (r : Registration ℓ) :
    e.append event r = pure (e.update event (e.registrations event ++ [r])) := by
  unfold append
  rcases find_ordinary (e := e) ordinary with found | ⟨found, empty⟩
  · rw [found]
    rfl
  · rw [found, empty]
    rfl

variable {l : ℓ}

theorem on_ok (ok : e.on event l = .ok e') : e' = e.update event (e.registrations event ++ [.plain l]) :=
  append_ok ok

theorem once_ok (ok : e.once event l = .ok e') :
    e' = { e.update event (e.registrations event ++ [.once e.nextTicket l]) with
      nextTicket := e.nextTicket + 1 } := by
  obtain ⟨appended, made, done⟩ := bind_eq_ok ok
  cases done
  rw [append_ok made]

section
variable [DecidableEq ℓ]

theorem off_ok (ok : e.off event l = .ok e') : e' = e.withdraw event (.plain l) := by
  unfold off at ok
  split at ok
  · cases ok
  · cases ok
    rfl

theorem off_ordinary (ordinary : inherited? event = none) (l : ℓ) :
    e.off event l = pure (e.withdraw event (.plain l)) := by
  unfold off
  rcases find_ordinary (e := e) ordinary with found | ⟨found, -⟩ <;> rw [found] <;> rfl

@[simp] theorem registrations_withdraw (e : Emitter ℓ) (event key : String) (r : Registration ℓ) :
    (e.withdraw event r).registrations key =
      if key = event then (e.registrations event).erase r else e.registrations key := by
  unfold withdraw
  split
  · exact registrations_update _ _ _ _
  · rename_i absent
    by_cases same : key = event
    · rw [if_pos same, same, registrations_of_absent (eq_false_of_ne_true absent)]
      rfl
    · rw [if_neg same]

theorem listener_fire (e : Emitter ℓ) (event : String) (r : Registration ℓ) :
    (e.fire event r).2 = r.listener := by
  cases r <;> rfl

@[simp] theorem registrations_fire (e : Emitter ℓ) (event key : String) (r : Registration ℓ) :
    (e.fire event r).1.registrations key =
      match r with
      | .plain _ => e.registrations key
      | .once _ _ =>
        if key = event then (e.registrations event).erase r else e.registrations key := by
  cases r <;> simp [fire]

end

theorem lookup_filter_ne (table : List (String × List (Registration ℓ))) (name key : String) :
    (table.filter (·.1 != name)).lookup key = if key = name then none else table.lookup key := by
  induction table with
  | nil => simp
  | cons p ps ih =>
    obtain ⟨key', regs⟩ := p
    by_cases dropped : key' = name
    · subst dropped
      rw [List.filter_cons_of_neg (by simp), ih]
      by_cases same : key = key'
      · simp [same]
      · simp [same, List.lookup_cons, beq_eq_false_iff_ne.2 same]
    · by_cases same : key = key'
      · subst same
        simp [dropped]
      · simp [List.lookup_cons, beq_eq_false_iff_ne.2 same, dropped, ih]

theorem lookup_removeAll_some (e : Emitter ℓ) (name key : String) :
    (e.removeAll (some name)).table.lookup key =
      if name = "" ∨ key = name then none else e.table.lookup key := by
  unfold removeAll
  by_cases empty : name = ""
  · subst empty
    rfl
  · have named : name.isEmpty = false := by simpa using empty
    simp only [named, Bool.false_eq_true, if_false, empty, false_or]
    exact lookup_filter_ne _ _ _

@[simp] theorem registrations_removeAll_none (e : Emitter ℓ) (key : String) :
    (e.removeAll none).registrations key = [] := rfl

@[simp] theorem registrations_removeAll_some (e : Emitter ℓ) (name key : String) :
    (e.removeAll (some name)).registrations key =
      if name = "" ∨ key = name then [] else e.registrations key := by
  unfold registrations
  rw [lookup_removeAll_some]
  split <;> rfl

/-! ## The next ticket -/

theorem nextTicket_update (e : Emitter ℓ) (event : String) (rs : List (Registration ℓ)) :
    (e.update event rs).nextTicket = e.nextTicket := by
  unfold update
  split <;> rfl

theorem nextTicket_withdraw [DecidableEq ℓ] (e : Emitter ℓ) (event : String)
    (r : Registration ℓ) : (e.withdraw event r).nextTicket = e.nextTicket := by
  unfold withdraw
  split
  · exact nextTicket_update _ _ _
  · rfl

theorem nextTicket_removeAll (e : Emitter ℓ) (event : Option String) :
    (e.removeAll event).nextTicket = e.nextTicket := by
  unfold removeAll
  split
  · split <;> rfl
  · rfl

/-! ## Tickets -/

/-- The ticket of a one-shot registration. -/
def Registration.ticket? : Registration ℓ → Option Nat
  | .plain _ => none
  | .once t _ => some t

/-- The tickets of the one-shot registrations among `rs`, in order. -/
def ticketsOf (rs : List (Registration ℓ)) : List Nat :=
  rs.filterMap Registration.ticket?

theorem ticket_mem_ticketsOf {rs : List (Registration ℓ)} {t : Nat} {l : ℓ}
    (held : .once t l ∈ rs) : t ∈ ticketsOf rs :=
  List.mem_filterMap.2 ⟨_, held, rfl⟩

theorem ticketsOf_append_plain (rs : List (Registration ℓ)) (l : ℓ) :
    ticketsOf (rs ++ [.plain l]) = ticketsOf rs := by
  simp [ticketsOf, Registration.ticket?]

theorem ticketsOf_append_once (rs : List (Registration ℓ)) (t : Nat) (l : ℓ) :
    ticketsOf (rs ++ [.once t l]) = ticketsOf rs ++ [t] := by
  simp [ticketsOf, Registration.ticket?]

/-- The tickets a successful `once` leaves: the old ones, and the next
ticket under its event. -/
theorem mem_ticketsOf_once [DecidableEq ℓ] {l : ℓ} {t : Nat} (ok : e.once event l = .ok e') :
    t ∈ ticketsOf (e'.registrations key) ↔
      t ∈ ticketsOf (e.registrations key) ∨ (key = event ∧ t = e.nextTicket) := by
  rw [once_ok ok]
  show t ∈ ticketsOf ((e.update event _).registrations key) ↔ _
  rw [registrations_update]
  split
  · rename_i same
    rw [ticketsOf_append_once, List.mem_append, List.mem_singleton, same]
    simp
  · rename_i other
    simp [other]

theorem nextTicket_once [DecidableEq ℓ] {l : ℓ} (ok : e.once event l = .ok e') :
    e'.nextTicket = e.nextTicket + 1 := by
  rw [once_ok ok]

/-- `e'` holds no ticket that `e` does not hold under the same event, and
hands out tickets from the same point on: what removing registrations does. -/
structure Shrinks (e e' : Emitter ℓ) : Prop where
  sub : ∀ key, List.Sublist (ticketsOf (e'.registrations key)) (ticketsOf (e.registrations key))
  next : e'.nextTicket = e.nextTicket

theorem shrinks_on [DecidableEq ℓ] {l : ℓ} (ok : e.on event l = .ok e') : Shrinks e e' where
  sub key := by
    rw [on_ok ok, registrations_update]
    split
    · rename_i same
      simp only [ticketsOf_append_plain, same, List.Sublist.refl]
    · exact List.Sublist.refl _
  next := by rw [on_ok ok, nextTicket_update]

theorem shrinks_withdraw [DecidableEq ℓ] (e : Emitter ℓ) (event : String) (r : Registration ℓ) :
    Shrinks e (e.withdraw event r) where
  sub key := by
    rw [registrations_withdraw]
    split
    · rename_i same
      rw [same]
      exact List.erase_sublist.filterMap _
    · exact List.Sublist.refl _
  next := nextTicket_withdraw e event r

theorem shrinks_removeAll (e : Emitter ℓ) (event : Option String) :
    Shrinks e (e.removeAll event) where
  sub key := by
    cases event with
    | none => exact List.nil_sublist _
    | some name =>
      rw [registrations_removeAll_some]
      split
      · exact List.nil_sublist _
      · exact List.Sublist.refl _
  next := nextTicket_removeAll e event

/-! ## Fresh tickets -/

/-- Tickets tell one-shot registrations apart, as distinct wrapper functions
do: no ticket is held twice, under one event or two, and every ticket is
below the next one to be handed out. -/
structure Fresh (e : Emitter ℓ) : Prop where
  distinct : ∀ key, (ticketsOf (e.registrations key)).Nodup
  below : ∀ key, ∀ t ∈ ticketsOf (e.registrations key), t < e.nextTicket
  apart : ∀ key key', key ≠ key' →
    ∀ t ∈ ticketsOf (e.registrations key), t ∉ ticketsOf (e.registrations key')

theorem fresh_empty : ({} : Emitter ℓ).Fresh where
  distinct _ := List.nodup_nil
  below _ _ absent := absurd absent List.not_mem_nil
  apart _ _ _ _ absent := absurd absent List.not_mem_nil

theorem Fresh.of_shrinks (fresh : e.Fresh) (shrinks : Shrinks e e') : e'.Fresh where
  distinct key := (fresh.distinct key).sublist (shrinks.sub key)
  below key t mem := shrinks.next ▸ fresh.below key t ((shrinks.sub key).subset mem)
  apart key key' differ t mem mem' :=
    fresh.apart key key' differ t ((shrinks.sub key).subset mem) ((shrinks.sub key').subset mem')

/-- A one-shot registration takes the next ticket, which no registration
holds yet. -/
theorem Fresh.once [DecidableEq ℓ] {l : ℓ} (fresh : e.Fresh) (ok : e.once event l = .ok e') :
    e'.Fresh := by
  have unused : ∀ key, e.nextTicket ∉ ticketsOf (e.registrations key) :=
    fun key held => Nat.lt_irrefl _ (fresh.below key _ held)
  constructor
  · intro key
    rw [once_ok ok]
    show (ticketsOf ((e.update event _).registrations key)).Nodup
    rw [registrations_update]
    split
    · rw [ticketsOf_append_once]
      refine List.nodup_append.2 ⟨fresh.distinct event, by simp, ?_⟩
      intro t held t' other same
      rw [List.mem_singleton.1 other] at same
      exact unused event (same ▸ held)
    · exact fresh.distinct key
  · intro key t held
    rw [nextTicket_once ok]
    rcases (mem_ticketsOf_once ok).1 held with old | ⟨-, rfl⟩
    · exact Nat.lt_succ_of_lt (fresh.below key t old)
    · exact Nat.lt_succ_self _
  · intro key key' differ t held held'
    rcases (mem_ticketsOf_once ok).1 held with old | ⟨first, rfl⟩ <;>
      rcases (mem_ticketsOf_once ok).1 held' with old' | ⟨second, same⟩
    · exact fresh.apart key key' differ t old old'
    · exact unused key (same ▸ old)
    · exact unused key' old'
    · exact differ (first.trans second.symm)

/-! ## Spent tickets -/

/-- The ticket `t` has been handed out, and no registration holds it any
more: its one-shot registration has been called or removed. -/
structure Spent (t : Nat) (e : Emitter ℓ) : Prop where
  issued : t < e.nextTicket
  absent : ∀ key, t ∉ ticketsOf (e.registrations key)

theorem Spent.of_shrinks {t : Nat} (spent : Spent t e) (shrinks : Shrinks e e') : Spent t e' where
  issued := shrinks.next ▸ spent.issued
  absent key held := spent.absent key ((shrinks.sub key).subset held)

/-- The ticket `once` hands out is above every spent one. -/
theorem Spent.once [DecidableEq ℓ] {t : Nat} {l : ℓ} (spent : Spent t e) (ok : e.once event l = .ok e') :
    Spent t e' where
  issued := by
    rw [nextTicket_once ok]
    exact Nat.lt_succ_of_lt spent.issued
  absent key held := by
    rcases (mem_ticketsOf_once ok).1 held with old | ⟨-, fresh⟩
    · exact spent.absent key old
    · exact Nat.ne_of_lt spent.issued fresh

/-- In an emitter whose tickets are fresh, calling a one-shot registration
that is still registered spends its ticket. -/
theorem Fresh.spent_fire [DecidableEq ℓ] (fresh : e.Fresh) {t : Nat} {l : ℓ}
    (held : .once t l ∈ e.registrations event) :
    Spent t (e.fire event (.once t l)).1 where
  issued := by
    rw [fire, nextTicket_withdraw]
    exact fresh.below event t (ticket_mem_ticketsOf held)
  absent key := by
    rw [registrations_fire]
    by_cases same : key = event
    · rw [if_pos same]
      have perm := (List.perm_cons_erase held).filterMap Registration.ticket?
      have distinct := perm.nodup_iff.1 (fresh.distinct event)
      exact (List.nodup_cons.1 distinct).1
    · rw [if_neg same]
      exact fresh.apart event key (Ne.symm same) t (ticket_mem_ticketsOf held)

end Emitter
end HttpStub
