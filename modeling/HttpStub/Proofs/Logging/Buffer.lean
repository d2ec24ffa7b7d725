import HttpStub.Proofs.Logging.Chain
import HttpStub.Proofs.Settings
import HttpStub.Proofs.Numerals

namespace HttpStub

/-!
# What a bounded log holds

A log store of capacity `m` cuts its buffer when it grows past `1.5 · m`
entries, keeping the newest `m`.  Both numbers are doubles: the threshold is
the double nearest to `1.5 · m`, and the cut is a slice from `-m`.  For a
whole capacity `m` with `3 · m < 2^53` the threshold is exactly `1.5 · m`,
and a buffer within the bound has a length below `2^53`, so the comparison
is the exact one.  A capacity of zero is the exception: its slice from `-0`
is the slice from `0`, the whole buffer, so such a store is never cut.

Main statement, `store_keeps_newest`: after any calls of `add` and `clear`
on a new store, its entries are the newest of those added since the last
clear, in the order they were added, numbered by how many adds came before
each, so no number is handed out twice.  A positive capacity `m` keeps at
least `min n m` of the `n` entries added since the last clear and at most
`⌊1.5 · m⌋`; a zero capacity keeps all `n`.
-/

namespace Double

theorem log2_mul_two_pow {n : Nat} (pos : 0 < n) (k : Nat) : Nat.log2 (n * 2 ^ k) = Nat.log2 n + k := by
  rw [Nat.log2_eq_iff (Nat.mul_ne_zero (by omega) (by positivity))]
  constructor
  · rw [Nat.pow_add]
    exact Nat.mul_le_mul_right _ (Nat.log2_self_le (by omega))
  · rw [show Nat.log2 n + k + 1 = (Nat.log2 n + 1) + k by omega, Nat.pow_add]
    exact Nat.mul_lt_mul_of_pos_right Nat.lt_log2_self (Nat.two_pow_pos k)

theorem roundHalfEven_of_exact (q : Nat) {d : Nat} (pos : 0 < d) : roundHalfEven q 0 d = q := by
  simp [roundHalfEven, Nat.ne_of_lt pos]

/-- Half of a positive `n`, as a ratio over a power of two, is not below the
power of two one place under the leading bit of `n`. -/
theorem belowPowerOfTwo_half {n : Nat} (pos : 0 < n) (k : Nat) :
    belowPowerOfTwo (n * 2 ^ k) (2 * 2 ^ k) ((Nat.log2 n : Int) - 1) = false := by
  set j := Nat.log2 n
  have lower : 2 ^ j ≤ n := Nat.log2_self_le (by omega)
  unfold belowPowerOfTwo
  split
  · have exponent : ((j : Int) - 1).toNat = j - 1 := by omega
    have power : 2 * 2 ^ k * 2 ^ (j - 1) ≤ n * 2 ^ k := by
      calc 2 * 2 ^ k * 2 ^ (j - 1) = 2 ^ (j - 1 + 1) * 2 ^ k := by rw [Nat.pow_succ]; ring
        _ ≤ 2 ^ j * 2 ^ k := Nat.mul_le_mul_right _ (Nat.pow_le_pow_right (by decide) (by omega))
        _ ≤ n * 2 ^ k := Nat.mul_le_mul_right _ lower
    simpa [exponent, Nat.pow_eq] using power
  · have first : j = 0 := by omega
    have exponent : ((j : Int) - 1).natAbs = 1 := by omega
    have power : 2 * 2 ^ k ≤ n * 2 ^ k * 2 := by
      calc 2 * 2 ^ k ≤ 2 * (n * 2 ^ k) := Nat.mul_le_mul_left _ (Nat.le_mul_of_pos_left _ pos)
        _ = n * 2 ^ k * 2 := Nat.mul_comm _ _
    simpa [exponent, Nat.pow_eq] using power

/-- Half of a whole number below `2^53`, given as a ratio over any power of
two, is a double exactly: the number shifted up to 53 bits, one place
further down. -/
theorem ofRatio_half {n : Nat} (pos : 0 < n) (small : n < 2 ^ 53) (k : Nat) :
    ofRatio false (n * 2 ^ k) (2 * 2 ^ k) =
      .finite false (n * 2 ^ (52 - Nat.log2 n)) ((Nat.log2 n : Int) - 53) := by
  have notBelow := belowPowerOfTwo_half pos k
  set j := Nat.log2 n
  have bits : j ≤ 52 := by have := (Nat.log2_lt (by omega)).2 small; omega
  have top : Nat.log2 (n * 2 ^ k) = j + k := log2_mul_two_pow pos k
  have bottom : Nat.log2 (2 * 2 ^ k) = k + 1 := by
    rw [show 2 * 2 ^ k = 2 ^ (k + 1) by rw [Nat.pow_succ, Nat.mul_comm], Nat.log2_two_pow]
  have upper : n < 2 ^ (j + 1) := Nat.lt_log2_self
  have shift : max ((j : Int) - 1 - 52) minExponent = (j : Int) - 53 := by simp only [minExponent]; omega
  have scaled : n * 2 ^ k * 2 ^ (53 - j) = n * 2 ^ (52 - j) * (2 * 2 ^ k) := by
    rw [show 53 - j = (52 - j) + 1 by omega, Nat.pow_succ]
    ring
  have divide : divideByPowerOfTwo (n * 2 ^ k) (2 * 2 ^ k) ((j : Int) - 53) =
      (n * 2 ^ (52 - j), 0, 2 * 2 ^ k) := by
    have gap : ((j : Int) - 53).natAbs = 53 - j := by omega
    simp only [divideByPowerOfTwo, show ¬ (0 : Int) ≤ (j : Int) - 53 by omega, if_false, gap, Nat.pow_eq,
      scaled, Nat.mul_div_cancel _ (by positivity : 0 < 2 * 2 ^ k), Nat.mul_mod_left]
  have fits : n * 2 ^ (52 - j) < significandBound := by
    calc n * 2 ^ (52 - j) < 2 ^ (j + 1) * 2 ^ (52 - j) := Nat.mul_lt_mul_of_pos_right upper (Nat.two_pow_pos _)
      _ = significandBound := by rw [← Nat.pow_add, significandBound, Nat.pow_eq]; congr 1; omega
  have nonzero : ¬ (n * 2 ^ k = 0 ∨ 2 * 2 ^ k = 0) := by
    have := Nat.two_pow_pos k
    rw [not_or]
    exact ⟨Nat.mul_ne_zero (by omega) (by omega), by omega⟩
  unfold ofRatio
  simp only [nonzero, if_false, top, bottom,
    show ((j + k : Nat) : Int) - ((k + 1 : Nat) : Int) = (j : Int) - 1 by omega, notBelow, Bool.false_eq_true,
    shift, divide, roundHalfEven_of_exact _ (by positivity : 0 < 2 * 2 ^ k), Nat.ne_of_lt fits,
    show ¬ ((j : Int) - 53 > maxExponent) by simp only [maxExponent]; omega]

/-- One and a half times a whole number whose triple is below `2^53` is a
double exactly. -/
theorem rank_scale_three_halves {m : Nat} (pos : 0 < m) (safe : 3 * m < 2 ^ 53) :
    ((ofNat m).scale 3 2).rank = ((((3 * m : Nat) : ℝ) / 2 : ℝ) : EReal) := by
  have bits : Nat.log2 m ≤ 51 := by have := (Nat.log2_lt (by omega)).2 (show m < 2 ^ 52 by omega); omega
  have gap : ((Nat.log2 m : Int) - 52).natAbs = 52 - Nat.log2 m := by omega
  rw [ofNat_of_small m pos (by omega)]
  simp only [scale, show ¬ (0 : Int) ≤ (Nat.log2 m : Int) - 52 by omega, if_false, gap, Nat.pow_eq]
  rw [show m * 2 ^ (52 - Nat.log2 m) * 3 = 3 * m * 2 ^ (52 - Nat.log2 m) by ring, ofRatio_half (by omega) safe]
  set j := Nat.log2 (3 * m)
  have bitsThree : j ≤ 52 := by have := (Nat.log2_lt (by omega)).2 safe; omega
  simp only [rank, signed, Bool.false_eq_true, if_false]
  congr 1
  push_cast
  rw [mul_assoc, ← zpow_natCast, ← zpow_add₀ (by norm_num)]
  have half : (((52 - j : Nat) : Int) + ((j : Int) - 53)) = -1 := by omega
  rw [half, zpow_neg_one]
  ring

/-- A buffer shorter than `2^53` passes the threshold of a positive whole
capacity `m`, with `3 · m` below `2^53`, exactly when it holds more than
`1.5 · m` entries. -/
theorem scale_lt_ofNat_iff {m L : Nat} (pos : 0 < m) (safe : 3 * m < 2 ^ 53) (short : L < 2 ^ 53) :
    ((ofNat m).scale 3 2).lt (ofNat L) = true ↔ 3 * m < 2 * L := by
  have twice : (L : ℝ) * 2 = ((2 * L : Nat) : ℝ) := by push_cast; ring
  rw [lt_eq_true_iff, rank_scale_three_halves pos safe, rank_ofNat_of_lt short, EReal.coe_lt_coe_iff,
    div_lt_iff₀ (by norm_num), twice, Nat.cast_lt]

theorem truncate_neg (n : Bool) (m : Nat) (e : Int) : (Double.finite n m e).neg.truncate = -(Double.finite n m e).truncate := by
  cases n <;> simp [neg, truncate, signed]

theorem relativeIndex_of_isFinite {x : Double} (finite : x.isFinite = true) (L : Nat) :
    x.relativeIndex L = if x.truncate < 0 then L - x.truncate.natAbs else min x.truncate.toNat L := by
  cases x with
  | finite n M e => rfl
  | infinite n => simp [isFinite] at finite

/-- A slice from `-m` of a whole number `m` below `2^53` starts `m` from the
end, or at the start when the buffer is shorter; from `-0` it starts at the
start. -/
theorem relativeIndex_neg_ofNat {m : Nat} (small : m < 2 ^ 53) (L : Nat) :
    (ofNat m).neg.relativeIndex L = if 0 < m then L - m else 0 := by
  obtain ⟨n, M, e, double⟩ : ∃ n M e, ofNat m = .finite n M e := by
    have whole := isInteger_ofNat small
    cases double : ofNat m with
    | finite n M e => exact ⟨n, M, e, rfl⟩
    | infinite n => simp [double, isInteger] at whole
  have turned : (ofNat m).neg.truncate = -(m : Int) := by
    rw [double, truncate_neg, ← double, truncate_ofNat small]
  have finite : (ofNat m).neg.isFinite = true := by rw [double]; rfl
  rw [relativeIndex_of_isFinite finite, turned]
  split <;> split <;> omega

end Double

namespace LogStore

variable {σ α : Type}

theorem trim_zero (entries : List (LogEntry α)) : trim (Double.ofNat 0) entries = entries := by
  have none : cutCount (Double.ofNat 0) entries.length = 0 := by
    simp [cutCount, Double.relativeIndex_neg_ofNat (show 0 < 2 ^ 53 by decide)]
  unfold trim
  split <;> simp [none]

/-- A positive whole capacity `m`, with `3 · m` below `2^53`, cuts a buffer
shorter than `2^53` to its newest `m` entries exactly when it holds more
than `1.5 · m`. -/
theorem trim_ofNat {m : Nat} (pos : 0 < m) (safe : 3 * m < 2 ^ 53) {entries : List (LogEntry α)}
    (short : entries.length < 2 ^ 53) :
    trim (Double.ofNat m) entries =
      if 3 * m < 2 * entries.length then entries.drop (entries.length - m) else entries := by
  have cut : cutCount (Double.ofNat m) entries.length = entries.length - m := by
    simp [cutCount, Double.relativeIndex_neg_ofNat (show m < 2 ^ 53 by omega), pos]
  unfold trim
  by_cases full : 3 * m < 2 * entries.length
  · rw [if_pos ((Double.scale_lt_ofNat_iff pos safe short).2 full), if_pos full, cut]
  · have within : ¬ ((Double.ofNat m).scale 3 2).lt (Double.ofNat entries.length) = true :=
      fun passed => full ((Double.scale_lt_ofNat_iff pos safe short).1 passed)
    rw [if_neg within, if_neg full]

/-- A call that changes what a store holds. -/
inductive Call (α : Type) where
  | add (level message : String) (args : List α)
  | clear

/-- Make a call on a store. -/
def call (s : LogStore σ α) : Call α → LogStore σ α
  | .add level message args => (s.add level message args).1
  | .clear => s.clear

/-- Make calls on a store, one after another. -/
def calls (s : LogStore σ α) (cs : List (Call α)) : LogStore σ α :=
  cs.foldl call s

namespace Call

/-- A log without bound after a call, with the number of adds so far: an
add appends its entry, numbered by the adds before it, and a clear empties
the log. -/
def record (h : Nat × List (LogEntry α)) : Call α → Nat × List (LogEntry α)
  | .add level message args => (h.1 + 1, h.2 ++ [⟨h.1, level, message, args⟩])
  | .clear => (h.1, [])

/-- The log without bound after calls on a new store, with the number of
adds. -/
def history (cs : List (Call α)) : Nat × List (LogEntry α) :=
  cs.foldl record (0, [])

end Call

/-- A store of whole capacity `m` beside the log without bound `h` of the
same calls: the store has counted the same adds, holds the newest entries of
the log, at least `min n m` of the `n` the log holds, and, for a positive
capacity, at most `1.5 · m`; a zero capacity holds the whole log.  The log's
entries are numbered consecutively, up to the count. -/
structure Tracks (m : Nat) (s : LogStore σ α) (h : Nat × List (LogEntry α)) : Prop where
  capacity : s.capacity = Double.ofNat m
  count : s.nextId = h.1
  newest : s.entries <:+ h.2
  numbered : h.2.map (·.id) = List.range' (h.1 - h.2.length) h.2.length
  counted : h.2.length ≤ h.1
  least : min h.2.length m ≤ s.entries.length
  most : 0 < m → 2 * s.entries.length ≤ 3 * m
  whole : m = 0 → s.entries = h.2

namespace Tracks

variable {m : Nat} {s : LogStore σ α} {h : Nat × List (LogEntry α)}

theorem empty (m : Nat) : Tracks m (LogStore.empty (Double.ofNat m) : LogStore σ α) (0, []) where
  capacity := rfl
  count := rfl
  newest := List.suffix_refl _
  numbered := rfl
  counted := le_rfl
  least := by simp
  most := fun _ => by simp [LogStore.empty]
  whole := fun _ => rfl

theorem clear (t : Tracks m s h) : Tracks m (s.call .clear) (Call.record h .clear) where
  capacity := t.capacity
  count := t.count
  newest := List.suffix_refl _
  numbered := rfl
  counted := Nat.zero_le _
  least := by simp [call, LogStore.clear, Call.record]
  most := fun _ => by simp [call, LogStore.clear]
  whole := fun _ => rfl

/-- What an add leaves: the buffer with the new entry last, cut to the
newest `m` entries when it passes `1.5 · m`, and for a zero capacity never
cut. -/
theorem entries_add (safe : 3 * m < 2 ^ 53) (t : Tracks m s h) (level message : String) (args : List α) :
    (s.call (.add level message args)).entries =
      if 0 < m ∧ 3 * m < 2 * (s.entries.length + 1) then
        (s.entries ++ [(⟨h.1, level, message, args⟩ : LogEntry α)]).drop (s.entries.length + 1 - m)
      else s.entries ++ [(⟨h.1, level, message, args⟩ : LogEntry α)] := by
  simp only [call, add, t.capacity, t.count]
  rcases Nat.eq_zero_or_pos m with zero | pos
  · subst zero
    simp [trim_zero]
  · have short : (s.entries ++ [(⟨h.1, level, message, args⟩ : LogEntry α)]).length < 2 ^ 53 := by
      have := t.most pos
      simp only [List.length_append, List.length_singleton]
      omega
    rw [trim_ofNat pos safe short]
    simp [pos]

theorem length_entries_add (safe : 3 * m < 2 ^ 53) (t : Tracks m s h) (level message : String)
    (args : List α) :
    (s.call (.add level message args)).entries.length =
      if 0 < m ∧ 3 * m < 2 * (s.entries.length + 1) then m else s.entries.length + 1 := by
  rw [t.entries_add safe level message args]
  split
  · next cut => simp only [List.length_drop, List.length_append, List.length_singleton]; omega
  · simp

theorem add (safe : 3 * m < 2 ^ 53) (t : Tracks m s h) (level message : String) (args : List α) :
    Tracks m (s.call (.add level message args)) (Call.record h (.add level message args)) := by
  have entries := t.entries_add safe level message args
  have newest : s.entries ++ [(⟨h.1, level, message, args⟩ : LogEntry α)] <:+
      h.2 ++ [⟨h.1, level, message, args⟩] := by
    obtain ⟨p, grown⟩ := t.newest
    exact ⟨p, by rw [← grown, List.append_assoc]⟩
  have least := t.least
  have counted := t.counted
  refine ⟨t.capacity, by simp [call, LogStore.add, t.count, Call.record], ?_, ?_, ?_, ?_, ?_, ?_⟩
  · rw [entries]
    split
    · exact (List.drop_suffix _ _).trans newest
    · exact newest
  · simp only [Call.record, List.map_append, List.map_cons, List.map_nil, t.numbered, List.length_append,
      List.length_singleton]
    rw [show h.1 + 1 - (h.2.length + 1) = h.1 - h.2.length by omega, List.range'_concat]
    congr 2
    omega
  · simp only [Call.record, List.length_append, List.length_singleton]
    omega
  · simp only [Call.record, List.length_append, List.length_singleton, t.length_entries_add safe]
    split <;> omega
  · intro pos
    rw [t.length_entries_add safe]
    split <;> omega
  · intro zero
    rw [entries, if_neg (by omega), t.whole zero]
    rfl

/-- A store of a whole capacity `m` with `3 · m` below `2^53` tracks the log
without bound over every run of calls. -/
theorem calls (safe : 3 * m < 2 ^ 53) (t : Tracks m s h) (cs : List (Call α)) :
    Tracks m (s.calls cs) (cs.foldl Call.record h) := by
  induction cs generalizing s h with
  | nil => exact t
  | cons c cs ih =>
    cases c with
    | add level message args => exact ih (t.add safe level message args)
    | clear => exact ih t.clear

/-- The entries a store holds are numbered consecutively, up to the last
number handed out. -/
theorem numbered_entries (t : Tracks m s h) :
    s.entries.map (·.id) = List.range' (s.nextId - s.entries.length) s.entries.length := by
  obtain ⟨p, split⟩ := t.newest
  have ids := t.numbered
  have counted := t.counted
  rw [← split] at ids counted
  rw [List.map_append, List.length_append, ← List.range'_append_1] at ids
  rw [(List.append_inj ids (by simp)).2, t.count]
  simp only [List.length_append] at counted
  congr 1
  omega

end Tracks

/-- A store of whole capacity `m`, with `3 · m` below `2^53`, after any calls
of `add` and `clear` from new.  It has counted every add, and its entries are
the newest of those added since the last clear, in the order they were
added, numbered consecutively up to the last number handed out, so that each
add gets the number of adds before it and no number is given twice.  Of the
`n` entries added since the last clear it holds at least `min n m`; a
positive capacity holds at most `⌊1.5 · m⌋`, and a zero capacity holds all
`n`. -/
theorem store_keeps_newest (m : Nat) (safe : 3 * m < 2 ^ 53) (cs : List (Call α)) :
    let s : LogStore σ α := (LogStore.empty (Double.ofNat m)).calls cs
    s.nextId = (Call.history cs).1 ∧ s.entries <:+ (Call.history cs).2 ∧
      s.entries.map (·.id) = List.range' (s.nextId - s.entries.length) s.entries.length ∧
      min (Call.history cs).2.length m ≤ s.entries.length ∧
      (0 < m → 2 * s.entries.length ≤ 3 * m) ∧ (m = 0 → s.entries = (Call.history cs).2) := by
  have t : Tracks m ((LogStore.empty (Double.ofNat m) : LogStore σ α).calls cs) (Call.history cs) :=
    (Tracks.empty m).calls safe cs
  exact ⟨t.count, t.newest, t.numbered_entries, t.least, t.most, t.whole⟩

example : (((LogStore.empty (Double.ofNat 2) : LogStore Unit Nat).calls
    [.add "info" "1" [], .add "info" "2" [], .add "info" "3" [], .add "info" "4" []]).entries.map (·.message)) =
    ["3", "4"] := by
  decide

end LogStore

end HttpStub
