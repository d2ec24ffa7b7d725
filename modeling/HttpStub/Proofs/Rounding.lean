import HttpStub.Text.Double
import Mathlib.Data.EReal.Basic

namespace HttpStub
namespace Double

/-!
# How doubles compare, and how natural numbers round into them

A double stands for a point of the extended real line: a finite double for
its value `±m · 2^e`, and the infinities for the two ends.  `lt` and `le`
compare exactly these points, whatever representation of a value a double
has, so the order of doubles is the order of the line.

A natural number becomes a double by rounding to 53 significant bits, ties
to an even significand, and overflows to positive infinity once the rounded
value reaches `2^1024`.  Below `2^53` nothing is rounded at all.  Rounding to
a fixed grid of multiples of `2^s` is monotone, and a number in a higher
binade rounds to at least the power of two that starts it, so the double of
a natural number never decreases as the number grows.  A count compared with
a bound that is itself the double of a natural number (a queue against its
limit, a numeral against a range) is therefore never on the wrong side of it.
-/

/-- The point of the extended real line a double stands for. -/
noncomputable def rank : Double → EReal
  | .finite n m e => ((signed n m : ℝ) * (2 : ℝ) ^ e : ℝ)
  | .infinite n => if n then ⊥ else ⊤

/-- Both sides of a comparison of finite doubles are scaled to their least
exponent; that is comparing their values. -/
theorem scaled_lt_iff (s₁ s₂ : Int) (e₁ e₂ : Int) :
    s₁ * ((Nat.pow 2 (e₁ - min e₁ e₂).toNat : Nat) : Int) <
        s₂ * ((Nat.pow 2 (e₂ - min e₁ e₂).toNat : Nat) : Int) ↔
      (s₁ : ℝ) * (2 : ℝ) ^ e₁ < (s₂ : ℝ) * (2 : ℝ) ^ e₂ := by
  set e := min e₁ e₂
  have first : ((e₁ - e).toNat : Int) = e₁ - e := Int.toNat_of_nonneg (by omega)
  have second : ((e₂ - e).toNat : Int) = e₂ - e := Int.toNat_of_nonneg (by omega)
  have positive : (0 : ℝ) < (2 : ℝ) ^ e := zpow_pos (by norm_num) e
  have split₁ : (2 : ℝ) ^ e₁ = (2 : ℝ) ^ (e₁ - e).toNat * (2 : ℝ) ^ e := by
    rw [← zpow_natCast, ← zpow_add₀ (by norm_num), first]
    ring_nf
  have split₂ : (2 : ℝ) ^ e₂ = (2 : ℝ) ^ (e₂ - e).toNat * (2 : ℝ) ^ e := by
    rw [← zpow_natCast, ← zpow_add₀ (by norm_num), second]
    ring_nf
  rw [split₁, split₂, ← mul_assoc, ← mul_assoc, mul_lt_mul_iff_of_pos_right positive]
  simp only [Nat.pow_eq]
  exact_mod_cast Iff.rfl

theorem lt_eq_true_iff (a b : Double) : a.lt b = true ↔ a.rank < b.rank := by
  cases a with
  | infinite n₁ =>
    cases b with
    | infinite n₂ => cases n₁ <;> cases n₂ <;> simp [lt, rank]
    | finite n₂ m₂ e₂ =>
      cases n₁
      · simp only [lt, rank, Bool.false_eq_true, if_false, not_top_lt]
      · simp only [lt, rank, if_true, EReal.bot_lt_coe]
  | finite n₁ m₁ e₁ =>
    cases b with
    | infinite n₂ =>
      cases n₂
      · simp only [lt, rank, Bool.not_false, Bool.false_eq_true, if_false, EReal.coe_lt_top]
      · simp only [lt, rank, Bool.not_true, if_true, not_lt_bot, Bool.false_eq_true]
    | finite n₂ m₂ e₂ =>
      simp only [lt, rank, decide_eq_true_eq, EReal.coe_lt_coe_iff]
      exact scaled_lt_iff _ _ _ _

theorem le_eq_true_iff (a b : Double) : a.le b = true ↔ a.rank ≤ b.rank := by
  rw [le, Bool.not_eq_true', ← Bool.not_eq_true, lt_eq_true_iff, not_lt]

/-! ## Rounding to a grid -/

/-- `n` rounded to a multiple of `2^s`, ties to an even multiple. -/
def roundMultiple (s n : Nat) : Nat :=
  roundHalfEven (n / 2 ^ s) (n % 2 ^ s) (2 ^ s) * 2 ^ s

theorem le_roundHalfEven (q r d : Nat) : q ≤ roundHalfEven q r d := by
  unfold roundHalfEven
  split <;> omega

theorem roundHalfEven_le_succ (q r d : Nat) : roundHalfEven q r d ≤ q + 1 := by
  unfold roundHalfEven
  split <;> omega

theorem roundHalfEven_exact (q : Nat) : roundHalfEven q 0 1 = q := by
  simp [roundHalfEven]

theorem roundHalfEven_mono {q r r' d : Nat} (le : r ≤ r') :
    roundHalfEven q r d ≤ roundHalfEven q r' d := by
  unfold roundHalfEven
  split
  · rename_i up
    have up' : 2 * r' > d ∨ (2 * r' = d ∧ q % 2 = 1) := by omega
    simp only [up', if_true, Nat.le_refl]
  · split <;> omega

theorem roundMultiple_mono (s : Nat) {n k : Nat} (le : n ≤ k) :
    roundMultiple s n ≤ roundMultiple s k := by
  unfold roundMultiple
  apply Nat.mul_le_mul_right
  have quotients : n / 2 ^ s ≤ k / 2 ^ s := Nat.div_le_div_right le
  rcases Nat.lt_or_eq_of_le quotients with smaller | same
  · calc roundHalfEven (n / 2 ^ s) (n % 2 ^ s) (2 ^ s)
        ≤ n / 2 ^ s + 1 := roundHalfEven_le_succ _ _ _
      _ ≤ k / 2 ^ s := smaller
      _ ≤ roundHalfEven (k / 2 ^ s) (k % 2 ^ s) (2 ^ s) := le_roundHalfEven _ _ _
  · rw [same]
    apply roundHalfEven_mono
    have split_n := Nat.div_add_mod n (2 ^ s)
    have split_k := Nat.div_add_mod k (2 ^ s)
    rw [same] at split_n
    omega

theorem roundMultiple_mul (s c : Nat) : roundMultiple s (c * 2 ^ s) = c * 2 ^ s := by
  have positive : 0 < 2 ^ s := Nat.two_pow_pos s
  simp [roundMultiple, Nat.mul_div_cancel c positive, roundHalfEven, positive.ne]

/-! ## The double of a natural number -/

/-- The value the double of `n` has unless it overflows: `n` rounded to 53
significant bits. -/
def roundedNat (n : Nat) : Nat :=
  roundMultiple (Nat.log2 n - 52) n

/-- The last steps of rounding a positive value: a significand that rounded
up to `2^53` moves into the next binade, and an exponent past the greatest
overflows. -/
def normalize (m : Nat) (s : Int) : Double :=
  let (m, s) := if m = significandBound then (significandBound / 2, s + 1) else (m, s)
  if s > maxExponent then .infinite false else .finite false m s

theorem log2_one : Nat.log2 1 = 0 :=
  (Nat.log2_eq_iff (by decide)).2 (by decide)

theorem log2_mono {n k : Nat} (le : n ≤ k) : Nat.log2 n ≤ Nat.log2 k := by
  rcases Nat.eq_zero_or_pos n with zero | pos
  · simp [zero, Nat.log2_zero]
  · exact (Nat.le_log2 (by omega)).2 (Nat.le_trans (Nat.log2_self_le (by omega)) le)

theorem pos_of_log2_pos {n : Nat} (positive : 0 < Nat.log2 n) : 0 < n := by
  rcases Nat.eq_zero_or_pos n with zero | pos
  · simp [zero, Nat.log2_zero] at positive
  · exact pos

/-- The significand of a positive whole number keeps 53 bits, counted from
its leading bit. -/
theorem ofNat_eq_normalize (n : Nat) (pos : 0 < n) :
    ofNat n =
      normalize
        (roundHalfEven (divideByPowerOfTwo n 1 ((Nat.log2 n : Int) - 52)).1
          (divideByPowerOfTwo n 1 ((Nat.log2 n : Int) - 52)).2.1
          (divideByPowerOfTwo n 1 ((Nat.log2 n : Int) - 52)).2.2)
        ((Nat.log2 n : Int) - 52) := by
  have below : belowPowerOfTwo n 1 (Nat.log2 n : Int) = false := by
    simp only [belowPowerOfTwo, Nat.cast_nonneg, if_true, Int.toNat_natCast, Nat.one_mul,
      Nat.pow_eq, decide_eq_false_iff_not, Nat.not_lt]
    exact Nat.log2_self_le (by omega)
  have least : max ((Nat.log2 n : Int) - 52) minExponent = (Nat.log2 n : Int) - 52 := by
    simp only [minExponent]
    omega
  simp only [ofNat, ofRatio, log2_one, Nat.cast_zero, sub_zero, below, Bool.false_eq_true,
    if_false, least, normalize, show n ≠ 0 by omega, Nat.one_ne_zero, or_self]

theorem rank_finite_nat (m a : Nat) :
    (Double.finite false m (a : Int)).rank = (((m * 2 ^ a : Nat) : ℝ) : EReal) := by
  simp [rank, signed]

theorem rank_normalize_of_lt (m : Nat) (s : Int) (small : m < significandBound) :
    (normalize m s).rank = if s > maxExponent then ⊤ else (Double.finite false m s).rank := by
  simp only [normalize, Nat.ne_of_lt small, if_false]
  split <;> simp [rank]

theorem rank_normalize_bound (s : Int) :
    (normalize significandBound s).rank =
      if s + 1 > maxExponent then ⊤ else (Double.finite false significandBound s).rank := by
  simp only [normalize, if_true]
  split
  · simp [rank]
  · simp only [rank, signed, Bool.false_eq_true, if_false, significandBound, Nat.pow_eq]
    congr 1
    rw [zpow_add₀ (by norm_num)]
    norm_num
    ring

/-- Below `2^53` a positive whole number is a double as it is: its
significand is the number shifted up to 53 bits. -/
theorem ofNat_of_small (n : Nat) (pos : 0 < n) (small : Nat.log2 n ≤ 52) :
    ofNat n = .finite false (n * 2 ^ (52 - Nat.log2 n)) ((Nat.log2 n : Int) - 52) := by
  have divide : divideByPowerOfTwo n 1 ((Nat.log2 n : Int) - 52) =
      (n * 2 ^ (52 - Nat.log2 n), 0, 1) := by
    unfold divideByPowerOfTwo
    split
    · have top : Nat.log2 n = 52 := by omega
      simp [top, Nat.pow_eq, Nat.mod_one]
    · have gap : ((Nat.log2 n : Int) - 52).natAbs = 52 - Nat.log2 n := by omega
      simp [gap, Nat.pow_eq, Nat.mod_one]
  have bound : n * 2 ^ (52 - Nat.log2 n) < significandBound := by
    have below : n < 2 ^ (Nat.log2 n + 1) := Nat.lt_log2_self
    calc n * 2 ^ (52 - Nat.log2 n) < 2 ^ (Nat.log2 n + 1) * 2 ^ (52 - Nat.log2 n) :=
          Nat.mul_lt_mul_of_pos_right below (Nat.two_pow_pos _)
      _ = significandBound := by
          rw [← Nat.pow_add, significandBound, Nat.pow_eq]
          congr 1
          omega
  rw [ofNat_eq_normalize n pos, divide]
  simp only [roundHalfEven_exact, normalize, Nat.ne_of_lt bound, if_false]
  rw [if_neg (by simp [maxExponent]; omega)]

theorem rank_ofNat_small (n : Nat) (pos : 0 < n) (small : Nat.log2 n ≤ 52) :
    (ofNat n).rank = ((n : ℝ) : EReal) := by
  rw [ofNat_of_small n pos small]
  simp only [rank, signed, Bool.false_eq_true, if_false]
  congr 1
  push_cast
  rw [mul_assoc, ← zpow_natCast, ← zpow_add₀ (by norm_num)]
  have cancel : (((52 - Nat.log2 n : Nat) : Int) + ((Nat.log2 n : Int) - 52)) = 0 := by omega
  rw [cancel, zpow_zero, mul_one]

/-- From `2^53` on, a natural number is rounded to 53 significant bits, and
overflows once that reaches `2^1024`. -/
theorem rank_ofNat_large (n : Nat) (large : 53 ≤ Nat.log2 n) :
    (ofNat n).rank = if roundedNat n < 2 ^ 1024 then ((roundedNat n : ℝ) : EReal) else ⊤ := by
  have pos : 0 < n := pos_of_log2_pos (by omega)
  set a := Nat.log2 n - 52 with a_def
  have exponent : (Nat.log2 n : Int) - 52 = (a : Int) := by omega
  have divide : divideByPowerOfTwo n 1 (a : Int) = (n / 2 ^ a, n % 2 ^ a, 2 ^ a) := by
    simp [divideByPowerOfTwo, Nat.pow_eq]
  have binade : 2 ^ Nat.log2 n = 2 ^ 52 * 2 ^ a := by
    rw [← Nat.pow_add]
    congr 1
    omega
  have lower : 2 ^ 52 ≤ n / 2 ^ a := by
    rw [Nat.le_div_iff_mul_le (Nat.two_pow_pos a), ← binade]
    exact Nat.log2_self_le (by omega)
  have upper : n / 2 ^ a < 2 ^ 53 := by
    rw [Nat.div_lt_iff_lt_mul (Nat.two_pow_pos a)]
    calc n < 2 ^ (Nat.log2 n + 1) := Nat.lt_log2_self
      _ = 2 ^ 53 * 2 ^ a := by
          rw [← Nat.pow_add]
          congr 1
          omega
  set m := roundHalfEven (n / 2 ^ a) (n % 2 ^ a) (2 ^ a) with m_def
  have rounded : roundedNat n = m * 2 ^ a := rfl
  have m_ge : 2 ^ 52 ≤ m := Nat.le_trans lower (le_roundHalfEven _ _ _)
  have m_le : m ≤ significandBound := by
    have := roundHalfEven_le_succ (n / 2 ^ a) (n % 2 ^ a) (2 ^ a)
    simp only [significandBound, Nat.pow_eq]
    omega
  rw [ofNat_eq_normalize n pos, exponent, divide, ← m_def, rounded]
  rcases Nat.lt_or_eq_of_le m_le with below | top
  · rw [rank_normalize_of_lt m a below, rank_finite_nat]
    by_cases overflow : (a : Int) > maxExponent
    · have huge : ¬ m * 2 ^ a < 2 ^ 1024 := by
        have room : 2 ^ 1024 ≤ 2 ^ 52 * 2 ^ a := by
          rw [← Nat.pow_add]
          exact pow_le_pow_right₀ (by decide) (by simp only [maxExponent] at overflow; omega)
        exact Nat.not_lt_of_le (Nat.le_trans room (Nat.mul_le_mul_right _ m_ge))
      rw [if_pos overflow, if_neg huge]
    · have fits : m * 2 ^ a < 2 ^ 1024 := by
        have step : m * 2 ^ a < 2 ^ 53 * 2 ^ a :=
          Nat.mul_lt_mul_of_pos_right (by simpa [significandBound] using below) (Nat.two_pow_pos a)
        have room : 2 ^ 53 * 2 ^ a ≤ 2 ^ 1024 := by
          rw [← Nat.pow_add]
          exact pow_le_pow_right₀ (by decide) (by simp only [maxExponent] at overflow; omega)
        exact Nat.lt_of_lt_of_le step room
      rw [if_neg overflow, if_pos fits]
  · rw [top, rank_normalize_bound, rank_finite_nat]
    have power : significandBound * 2 ^ a = 2 ^ (53 + a) := by
      rw [significandBound, Nat.pow_eq, Nat.pow_add]
    rw [power]
    by_cases overflow : (a : Int) + 1 > maxExponent
    · have huge : ¬ 2 ^ (53 + a) < 2 ^ 1024 := by
        rw [pow_lt_pow_iff_right₀ (by decide)]
        simp only [maxExponent] at overflow
        omega
      rw [if_pos overflow, if_neg huge]
    · have fits : 2 ^ (53 + a) < 2 ^ 1024 := by
        rw [pow_lt_pow_iff_right₀ (by decide)]
        simp only [maxExponent] at overflow
        omega
      rw [if_neg overflow, if_pos fits]

/-- The double of a natural number: its rounding to 53 significant bits, or
positive infinity once that reaches `2^1024`. -/
theorem rank_ofNat (n : Nat) :
    (ofNat n).rank = if roundedNat n < 2 ^ 1024 then ((roundedNat n : ℝ) : EReal) else ⊤ := by
  rcases Nat.eq_zero_or_pos n with zero | pos
  · subst zero
    have exact : roundedNat 0 = 0 := by simp [roundedNat, roundMultiple, roundHalfEven]
    have zero : ofNat 0 = .finite false 0 0 := by simp [ofNat, ofRatio]
    rw [exact, if_pos (pow_pos (by decide) _), zero]
    simp [rank, signed]
  rcases Nat.lt_or_ge (Nat.log2 n) 53 with small | large
  · have exact : roundedNat n = n := by
      have unit : Nat.log2 n - 52 = 0 := by omega
      simpa [roundedNat, unit] using roundMultiple_mul 0 n
    have fits : n < 2 ^ 1024 :=
      Nat.lt_of_lt_of_le Nat.lt_log2_self (pow_le_pow_right₀ (by decide) (by omega))
    rw [rank_ofNat_small n pos (by omega), exact, if_pos fits]
  · exact rank_ofNat_large n large

theorem roundedNat_mono {n k : Nat} (le : n ≤ k) : roundedNat n ≤ roundedNat k := by
  have logs := log2_mono le
  unfold roundedNat
  rcases Nat.lt_or_eq_of_le (Nat.sub_le_sub_right logs 52) with finer | same
  · have pos : 0 < k := pos_of_log2_pos (by omega)
    have top : 2 ^ (Nat.log2 n + 1) =
        2 ^ (Nat.log2 n + 1 - (Nat.log2 n - 52)) * 2 ^ (Nat.log2 n - 52) := by
      rw [← Nat.pow_add]
      congr 1
      omega
    have bottom : 2 ^ Nat.log2 k =
        2 ^ (Nat.log2 k - (Nat.log2 k - 52)) * 2 ^ (Nat.log2 k - 52) := by
      rw [← Nat.pow_add]
      congr 1
      omega
    calc roundMultiple (Nat.log2 n - 52) n
        ≤ roundMultiple (Nat.log2 n - 52) (2 ^ (Nat.log2 n + 1)) :=
          roundMultiple_mono _ (Nat.le_of_lt Nat.lt_log2_self)
      _ = 2 ^ (Nat.log2 n + 1) := by rw [top, roundMultiple_mul]
      _ ≤ 2 ^ Nat.log2 k := Nat.pow_le_pow_right (by decide) (by omega)
      _ = roundMultiple (Nat.log2 k - 52) (2 ^ Nat.log2 k) := by rw [bottom, roundMultiple_mul]
      _ ≤ roundMultiple (Nat.log2 k - 52) k :=
          roundMultiple_mono _ (Nat.log2_self_le (by omega))
  · rw [same]
    exact roundMultiple_mono _ le

theorem rank_ofNat_mono {n k : Nat} (le : n ≤ k) : (ofNat n).rank ≤ (ofNat k).rank := by
  have rounded := roundedNat_mono le
  rw [rank_ofNat, rank_ofNat]
  by_cases fits : roundedNat k < 2 ^ 1024
  · have fits' : roundedNat n < 2 ^ 1024 := Nat.lt_of_le_of_lt rounded fits
    rw [if_pos fits, if_pos fits', EReal.coe_le_coe_iff]
    exact_mod_cast rounded
  · rw [if_neg fits]
    exact le_top

theorem le_ofNat_ofNat {n k : Nat} (le : n ≤ k) : (ofNat n).le (ofNat k) = true :=
  (le_eq_true_iff _ _).2 (rank_ofNat_mono le)

end Double
end HttpStub
