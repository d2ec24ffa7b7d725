import HttpStub.Proofs.Settings
import Mathlib.Data.Nat.Digits.Defs
import Mathlib.Data.EReal.Operations

namespace HttpStub

/-!
# Whole numbers read within safe bounds

A setting states a whole number when, trimmed of blanks, it is a non-empty
run of ASCII digits, leading zeros allowed; the number is the value of the
digits in base ten.  The reader takes the double nearest to that number and
compares it with the bounds.  A numeral of more than sixteen digits can
round, so that double need not be the number stated.

The bounds settings are read with are safe integers, below `2^53` in
magnitude, where every integer is a double exactly.  The double of a
number never decreases as the number grows, and `2^53` is its own double.
So a number beyond a safe bound has a double beyond it too, while a number
within safe bounds is below `2^53` and its double is the number itself: the
verdict is the one the exact number gets, and the number read is the number
stated.

Main statement, `numerals_read_exactly_within_safe_bounds`: for every text
and all safe bounds, a number is read exactly when the trimmed text is a
numeral whose value lies within the bounds, and then it is that value; a
port is read exactly from the numerals of 1 to 65535, and the port of the
environment is such a number or else 8080.
-/

namespace Decimal

/-- The value of a digit: its distance from `0`. -/
def digitValue (c : Char) : Nat :=
  c.toNat - '0'.toNat

/-- A text is a decimal numeral of `n`: a non-empty run of ASCII digits
whose value in base ten, the last digit counting least, is `n`. -/
def Denotes (t : String) (n : Nat) : Prop :=
  t.toList ≠ [] ∧ (∀ c ∈ t.toList, isDigit c = true) ∧
    Nat.ofDigits 10 (t.toList.reverse.map digitValue) = n

theorem valueFrom_nil (acc : Nat) : valueFrom acc [] = acc := rfl

theorem valueFrom_cons (acc : Nat) (c : Char) (cs : List Char) :
    valueFrom acc (c :: cs) = valueFrom (acc * 10 + (c.toNat - 48)) cs := by
  rw [valueFrom.eq_def]

theorem valueFrom_eq (acc : Nat) (cs : List Char) :
    valueFrom acc cs = acc * 10 ^ cs.length + Nat.ofDigits 10 (cs.reverse.map digitValue) := by
  induction cs generalizing acc with
  | nil => simp [valueFrom_nil]
  | cons c cs ih =>
    have zero : '0'.toNat = 48 := rfl
    rw [valueFrom_cons, ih, List.reverse_cons, List.map_append, Nat.ofDigits_append]
    simp only [List.length_map, List.length_reverse, List.map_cons, List.map_nil,
      Nat.ofDigits_singleton, List.length_cons, digitValue, zero]
    ring

theorem parse?_eq_some_iff (t : String) (n : Nat) : parse? t = some n ↔ Denotes t n := by
  unfold parse? Denotes
  by_cases numeral : t.toList ≠ [] ∧ ∀ c ∈ t.toList, isDigit c = true
  · have test : (!t.toList.isEmpty && t.toList.all isDigit) = true := by
      simpa [List.isEmpty_iff] using numeral
    simp only [test, if_true, Option.some.injEq, valueFrom_eq, Nat.zero_mul, Nat.zero_add]
    exact ⟨fun value => ⟨numeral.1, numeral.2, value⟩, fun denotes => denotes.2.2⟩
  · have test : (!t.toList.isEmpty && t.toList.all isDigit) = false := by
      simpa [List.isEmpty_iff] using numeral
    simp only [test, Bool.false_eq_true, if_false, reduceCtorEq, false_iff]
    exact fun denotes => numeral ⟨denotes.1, denotes.2.1⟩

end Decimal

namespace Double

theorem ofRatio_true (n d : Nat) : ofRatio true n d = (ofRatio false n d).neg := by
  unfold ofRatio
  dsimp only
  split_ifs <;> rfl

theorem rank_neg (x : Double) : x.neg.rank = -x.rank := by
  cases x with
  | finite n m e => cases n <;> simp [neg, rank, signed]
  | infinite n => cases n <;> simp [neg, rank]

theorem rank_ofInt {i : Int} (safe : i.natAbs < 2 ^ 53) : (ofInt i).rank = ((i : ℝ) : EReal) := by
  by_cases negative : i < 0
  · have magnitude : ((i.natAbs : ℕ) : ℝ) = -(i : ℝ) := by
      rw [Nat.cast_natAbs, Int.cast_abs, abs_of_neg (by exact_mod_cast negative)]
    rw [ofInt, decide_eq_true negative, ofRatio_true, rank_neg, ← ofNat, rank_ofNat_of_lt safe,
      magnitude, EReal.coe_neg, neg_neg]
  · have magnitude : ((i.natAbs : ℕ) : ℝ) = (i : ℝ) := by
      rw [Nat.cast_natAbs, Int.cast_abs, abs_of_nonneg (by exact_mod_cast Int.not_lt.1 negative)]
    rw [ofInt, decide_eq_false negative, ← ofNat, rank_ofNat_of_lt safe, magnitude]

theorem rank_ofNat_two_pow : (ofNat (2 ^ 53)).rank = (((2 ^ 53 : ℕ) : ℝ) : EReal) := by
  have exact : roundedNat (2 ^ 53) = 2 ^ 53 := by
    rw [roundedNat, Nat.log2_two_pow, show (2 : ℕ) ^ 53 = 2 ^ 52 * 2 ^ (53 - 52) by norm_num]
    exact roundMultiple_mul _ _
  have fits : (2 : ℕ) ^ 53 < 2 ^ 1024 := by
    apply Nat.pow_lt_pow_right <;> decide
  rw [rank_ofNat, exact, if_pos fits]

theorem two_pow_le_rank_ofNat {n : Nat} (large : 2 ^ 53 ≤ n) :
    (((2 ^ 53 : ℕ) : ℝ) : EReal) ≤ (ofNat n).rank :=
  rank_ofNat_two_pow ▸ rank_ofNat_mono large

section Safe

variable {n : Nat} {b : Int} (safe : b.natAbs < 2 ^ 53)
include safe

theorem lt_rank_ofNat_of_large (large : 2 ^ 53 ≤ n) : ((b : ℝ) : EReal) < (ofNat n).rank := by
  have below : b < ((2 ^ 53 : ℕ) : Int) := by omega
  have bound : (b : ℝ) < ((2 ^ 53 : ℕ) : ℝ) := by exact_mod_cast below
  exact lt_of_lt_of_le (EReal.coe_lt_coe_iff.2 bound) (two_pow_le_rank_ofNat large)

theorem rank_ofNat_lt_iff : (ofNat n).rank < ((b : ℝ) : EReal) ↔ (n : Int) < b := by
  by_cases small : n < 2 ^ 53
  · rw [rank_ofNat_of_lt small, EReal.coe_lt_coe_iff]
    exact_mod_cast Iff.rfl
  · have above := lt_rank_ofNat_of_large safe (Nat.le_of_not_lt small)
    exact ⟨fun lt => absurd above (lt_asymm lt), fun _ => by omega⟩

theorem lt_rank_ofNat_iff : ((b : ℝ) : EReal) < (ofNat n).rank ↔ b < (n : Int) := by
  by_cases small : n < 2 ^ 53
  · rw [rank_ofNat_of_lt small, EReal.coe_lt_coe_iff]
    exact_mod_cast Iff.rfl
  · exact ⟨fun _ => by omega, fun _ => lt_rank_ofNat_of_large safe (Nat.le_of_not_lt small)⟩

/-- A number's double is not below a safe bound exactly when the number is
not below it. -/
theorem lt_ofInt_eq_false_iff : (ofNat n).lt (ofInt b) = false ↔ b ≤ n := by
  rw [← Bool.not_eq_true, lt_eq_true_iff, rank_ofInt safe, rank_ofNat_lt_iff safe, Int.not_lt]

/-- A number's double is not above a safe bound exactly when the number is
not above it. -/
theorem ofInt_lt_eq_false_iff : (ofInt b).lt (ofNat n) = false ↔ (n : Int) ≤ b := by
  rw [← Bool.not_eq_true, lt_eq_true_iff, rank_ofInt safe, lt_rank_ofNat_iff safe, Int.not_lt]

end Safe

end Double

/-- Within safe bounds a text reads as a number exactly when, trimmed, it is
a numeral whose value is within the bounds, and it reads as that value. -/
theorem parseIntInRange_ofInt_eq_some_iff {lo hi : Int} (safeLo : lo.natAbs < 2 ^ 53)
    (safeHi : hi.natAbs < 2 ^ 53) (value : Option String) (d : Double) :
    parseIntInRange value (Double.ofInt lo) (Double.ofInt hi) = some d ↔
      ∃ s n, value = some s ∧ Decimal.Denotes (Blank.trim s) n ∧ lo ≤ n ∧ n ≤ hi ∧ d = Double.ofNat n := by
  rw [parseIntInRange_eq_some]
  simp only [Double.lt_ofInt_eq_false_iff safeLo, Double.ofInt_lt_eq_false_iff safeHi,
    Decimal.parse?_eq_some_iff]
  constructor
  · rintro ⟨s, n, given, numeral, rfl, least, most⟩
    exact ⟨s, n, given, numeral, least, most, rfl⟩
  · rintro ⟨s, n, given, numeral, least, most, rfl⟩
    exact ⟨s, n, given, numeral, rfl, least, most⟩

/-- Whole numbers are read exactly within safe bounds: a number is read
exactly when the trimmed text is a numeral whose value is within the bounds,
and the number read is that value, unrounded; a port is read from exactly
the numerals of 1 to 65535, and the port of the environment is such a
number, or else 8080. -/
theorem numerals_read_exactly_within_safe_bounds :
    (∀ (value : Option String) (lo hi : Int), lo.natAbs < 2 ^ 53 → hi.natAbs < 2 ^ 53 → ∀ d,
      parseIntInRange value (Double.ofInt lo) (Double.ofInt hi) = some d ↔
        ∃ s n, value = some s ∧ Decimal.Denotes (Blank.trim s) n ∧ lo ≤ n ∧ n ≤ hi ∧
          d = Double.ofNat n ∧ d.rank = ((n : ℝ) : EReal)) ∧
    (∀ value d, parsePort value = some d ↔
      ∃ s n, value = some s ∧ Decimal.Denotes (Blank.trim s) n ∧ 1 ≤ n ∧ n ≤ 65535 ∧ d = Double.ofNat n) ∧
    ∀ env : Env,
      (∀ s n, env "PORT" = some s → Decimal.Denotes (Blank.trim s) n → 1 ≤ n → n ≤ 65535 →
        resolvePort env = Double.ofNat n) ∧
      ((¬ ∃ s n, env "PORT" = some s ∧ Decimal.Denotes (Blank.trim s) n ∧ 1 ≤ n ∧ n ≤ 65535) →
        resolvePort env = Double.ofNat 8080) := by
  have port : ∀ value d, parsePort value = some d ↔
      ∃ s n, value = some s ∧ Decimal.Denotes (Blank.trim s) n ∧ 1 ≤ n ∧ n ≤ 65535 ∧ d = Double.ofNat n := by
    intro value d
    have bounds : parsePort value = parseIntInRange value (Double.ofInt 1) (Double.ofInt 65535) := rfl
    rw [bounds, parseIntInRange_ofInt_eq_some_iff (by decide) (by decide)]
    simp only [Nat.one_le_cast, Nat.cast_le_ofNat]
  refine ⟨fun value lo hi safeLo safeHi d => ?_, port, fun env => ⟨?_, fun none => ?_⟩⟩
  · rw [parseIntInRange_ofInt_eq_some_iff safeLo safeHi]
    refine exists_congr fun s => exists_congr fun n => ?_
    constructor
    · rintro ⟨given, numeral, least, most, rfl⟩
      exact ⟨given, numeral, least, most, rfl, Double.rank_ofNat_of_lt (by omega)⟩
    · rintro ⟨given, numeral, least, most, same, -⟩
      exact ⟨given, numeral, least, most, same⟩
  · intro s n given numeral least most
    rw [resolvePort, (port _ _).2 ⟨s, n, given, numeral, least, most, rfl⟩, Option.getD_some]
  · cases read : parsePort (env "PORT") with
    | none => rw [resolvePort, read]; rfl
    | some d =>
      obtain ⟨s, n, given, numeral, least, most, -⟩ := (port _ _).1 read
      exact absurd ⟨s, n, given, numeral, least, most⟩ none

/-- A port padded with blanks and leading zeros reads as its value. -/
theorem numerals_read_exactly_within_safe_bounds_padded :
    parseIntInRange (some " 0080\n") (Double.ofInt (-5)) (Double.ofInt 100) = some (Double.ofNat 80) ∧
      parsePort (some " 0080\n") = some (Double.ofNat 80) := by
  have padded : Decimal.Denotes (Blank.trim " 0080\n") 80 := (Decimal.parse?_eq_some_iff _ _).1 rfl
  exact ⟨(numerals_read_exactly_within_safe_bounds.1 _ (-5) 100 (by decide) (by decide) _).2
      ⟨_, 80, rfl, padded, by decide, by decide, rfl, Double.rank_ofNat_of_lt (by decide)⟩,
    (numerals_read_exactly_within_safe_bounds.2.1 _ _).2 ⟨_, 80, rfl, padded, by decide, by decide, rfl⟩⟩

end HttpStub
