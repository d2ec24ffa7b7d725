import Mathlib.Data.Nat.Find
import HttpStub.Proofs.FirstLine

/-!
# Searching bytes for a sequence

`Bytes.find? needle hay` is the least position at which the window of
`hay` as long as `needle` is `needle`, and `none` when no window is
(`Bytes.find?_least_occurrence`).  A window reaching past the end of `hay` is
shorter than the needle, so a search in bytes shorter than the needle finds
nothing, and an occurrence that ends with the last byte is found.

The search tries each position in turn and compares the needle with the
bytes from there on.  The comparison is a prefix test (`startsWith_iff`),
and a prefix of the bytes from position `i` is the window at `i`
(`occursAt_iff_isPrefix`).  The induction runs over the bytes, one
position at a time, as the search does.
-/

namespace HttpStub
namespace Bytes

/-- The window of `hay` at position `i`, as long as `needle`, is `needle`. -/
def OccursAt (needle hay : List UInt8) (i : Nat) : Prop :=
  (hay.drop i).take needle.length = needle

instance (needle hay : List UInt8) : DecidablePred (OccursAt needle hay) :=
  fun i => inferInstanceAs (Decidable ((hay.drop i).take needle.length = needle))

theorem occursAt_iff_isPrefix {needle hay : List UInt8} {i : Nat} :
    OccursAt needle hay i ↔ needle <+: hay.drop i := by
  rw [OccursAt, List.prefix_iff_eq_take, eq_comm]

@[simp] theorem occursAt_cons_succ {needle hs : List UInt8} {h : UInt8} {i : Nat} :
    OccursAt needle (h :: hs) (i + 1) ↔ OccursAt needle hs i := by
  rw [OccursAt, OccursAt, List.drop_succ_cons]

theorem occursAt_nil {needle : List UInt8} {i : Nat} : OccursAt needle [] i ↔ needle = [] := by
  rw [OccursAt, List.drop_nil, List.take_nil, eq_comm]

theorem OccursAt.add_length_le {needle hay : List UInt8} {i : Nat} (nonempty : needle ≠ [])
    (occurs : OccursAt needle hay i) : i + needle.length ≤ hay.length := by
  have window : ((hay.drop i).take needle.length).length = needle.length := by
    rw [occurs]
  have positive : 0 < needle.length := List.length_pos_iff.2 nonempty
  simp only [List.length_take, List.length_drop] at window
  omega

theorem startsWith_iff (needle hay : List UInt8) : startsWith needle hay = true ↔ needle <+: hay := by
  induction needle generalizing hay with
  | nil => simp [startsWith]
  | cons n ns ih =>
    cases hay with
    | nil => simp [startsWith]
    | cons h hs => rw [startsWith, Bool.and_eq_true, beq_iff_eq, ih, List.cons_prefix_cons]

theorem find?_nil (needle : List UInt8) : find? needle [] = if needle = [] then some 0 else none := by
  cases needle <;> rfl

theorem find?_cons (needle hs : List UInt8) (h : UInt8) :
    find? needle (h :: hs) = if needle <+: h :: hs then some 0 else (find? needle hs).map (· + 1) := by
  rw [find?, findFrom, findFrom_succ, ← find?]
  by_cases front : needle <+: h :: hs
  · rw [if_pos ((startsWith_iff _ _).2 front), if_pos front]
  · rw [if_neg (fun starts => front ((startsWith_iff _ _).1 starts)), if_neg front]

theorem least_of_occursAt_zero {needle hay : List UInt8} (here : OccursAt needle hay 0) (i : Nat) :
    0 = i ↔ OccursAt needle hay i ∧ ∀ j < i, ¬ OccursAt needle hay j := by
  constructor
  · rintro rfl
    exact ⟨here, fun _ below => absurd below (Nat.not_lt_zero _)⟩
  · rintro ⟨-, least⟩
    by_contra later
    exact least 0 (Nat.pos_of_ne_zero (Ne.symm later)) here

/-- Where the needle does not occur at the start, its least occurrence is one
past its least occurrence in the rest. -/
theorem least_succ_iff {needle hs : List UInt8} {h : UInt8}
    (notHere : ¬ OccursAt needle (h :: hs) 0) (i : Nat) :
    (OccursAt needle (h :: hs) (i + 1) ∧ ∀ j < i + 1, ¬ OccursAt needle (h :: hs) j) ↔
      OccursAt needle hs i ∧ ∀ j < i, ¬ OccursAt needle hs j := by
  rw [occursAt_cons_succ]
  constructor
  · rintro ⟨occurs, least⟩
    exact ⟨occurs, fun j below later => least (j + 1) (by omega) (occursAt_cons_succ.2 later)⟩
  · rintro ⟨occurs, least⟩
    refine ⟨occurs, fun j below => ?_⟩
    cases j with
    | zero => exact notHere
    | succ j => exact fun later => least j (by omega) (occursAt_cons_succ.1 later)

/-- The search answers the least position of an occurrence.  By induction
over the bytes, as the search steps from one position to the next. -/
theorem find?_eq_some_iff (needle hay : List UInt8) (i : Nat) :
    find? needle hay = some i ↔ OccursAt needle hay i ∧ ∀ j < i, ¬ OccursAt needle hay j := by
  induction hay generalizing i with
  | nil =>
    rw [find?_nil]
    by_cases empty : needle = []
    · rw [if_pos empty, Option.some.injEq]
      exact least_of_occursAt_zero (occursAt_nil.2 empty) i
    · simp [occursAt_nil, empty]
  | cons h hs ih =>
    rw [find?_cons]
    by_cases front : needle <+: h :: hs
    · rw [if_pos front, Option.some.injEq]
      exact least_of_occursAt_zero (occursAt_iff_isPrefix.2 front) i
    · have notHere : ¬ OccursAt needle (h :: hs) 0 := fun here => front (occursAt_iff_isPrefix.1 here)
      rw [if_neg front]
      cases i with
      | zero => simp [notHere]
      | succ i =>
        rw [least_succ_iff notHere, ← ih i]
        simp only [Option.map_eq_some_iff, Nat.add_right_cancel_iff, exists_eq_right]

theorem find?_eq_none_iff (needle hay : List UInt8) :
    find? needle hay = none ↔ ∀ i, ¬ OccursAt needle hay i := by
  constructor
  · intro missing i occurs
    have found := (find?_eq_some_iff needle hay (Nat.find ⟨i, occurs⟩)).2
      ⟨Nat.find_spec ⟨i, occurs⟩, fun j below => Nat.find_min ⟨i, occurs⟩ below⟩
    rw [missing] at found
    cases found
  · intro never
    cases found : find? needle hay with
    | none => rfl
    | some i => exact absurd ((find?_eq_some_iff needle hay i).1 found).1 (never i)

theorem find?_append_needle (front needle : List UInt8) :
    ∃ i ≤ front.length, find? needle (front ++ needle) = some i := by
  have ends : OccursAt needle (front ++ needle) front.length := by
    rw [OccursAt, List.drop_left, List.take_length]
  cases found : find? needle (front ++ needle) with
  | none => exact absurd ends ((find?_eq_none_iff _ _).1 found _)
  | some i =>
    refine ⟨i, ?_, rfl⟩
    by_contra later
    exact ((find?_eq_some_iff _ _ i).1 found).2 _ (by omega) ends

/-- Searching bytes for a sequence answers the least position whose window,
as long as the sequence, is the sequence, which lies within the bytes when
the sequence is not empty; it answers `none` exactly when there is no such
position, as when the bytes are shorter than a sequence; and a sequence that
ends the bytes is found. -/
theorem find?_least_occurrence (needle hay : List UInt8) :
    (∀ i, find? needle hay = some i ↔
      (hay.drop i).take needle.length = needle ∧
        ∀ j < i, (hay.drop j).take needle.length ≠ needle) ∧
    (∀ i, needle ≠ [] → find? needle hay = some i → i + needle.length ≤ hay.length) ∧
    (find? needle hay = none ↔ ∀ i, (hay.drop i).take needle.length ≠ needle) ∧
    (hay.length < needle.length → find? needle hay = none) ∧
    (∀ front, ∃ i ≤ front.length, find? needle (front ++ needle) = some i) := by
  refine ⟨fun i => find?_eq_some_iff needle hay i, fun i nonempty found => ?_,
    find?_eq_none_iff needle hay, fun short => ?_, fun front => find?_append_needle front needle⟩
  · exact ((find?_eq_some_iff needle hay i).1 found).1.add_length_le nonempty
  · rw [find?_eq_none_iff]
    intro i occurs
    have nonempty : needle ≠ [] := by
      rintro rfl
      exact Nat.not_lt_zero _ short
    have within := occurs.add_length_le nonempty
    omega

/-- The first of two CR LFs is found, one that ends the bytes too. -/
example : find? crlf [13, 13, 10, 13, 10] = some 1 ∧ find? crlf [65, 13, 10] = some 1 := by
  decide

end Bytes
end HttpStub
