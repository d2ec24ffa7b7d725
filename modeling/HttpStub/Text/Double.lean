/-!
# Double-precision numbers

The numbers the server handles, such as a status, a setting or a bound, are
binary64 doubles.  A double here is a signed finite value `m · 2^e` or a
signed infinity.  There is no NaN: no number read from a numeral is one.

A double is made by rounding an exact ratio to the nearest double, ties to
an even significand, with overflow to an infinity and gradual underflow to
zero; a decimal numeral is read this way.  Rounding gives the canonical
form: a significand of 53 bits (from `2^52` up to below `2^53`), or a
smaller one at the least exponent `-1074`, or zero.

Doubles compare by the values they stand for, so the two zeros are equal.
They print as the shortest decimal numeral that reads back as the same
double.  Positional form is used from `1e-6` up to below `1e21` and
exponent form outside it (`1e+21`, `1.5e-7`).
-/

namespace HttpStub

/-- A binary64 number other than NaN: `finite negative m e` stands for
`±m · 2^e`, and `infinite negative` for an infinity. -/
inductive Double where
  | finite (negative : Bool) (significand : Nat) (exponent : Int)
  | infinite (negative : Bool)
  deriving DecidableEq, Repr

namespace Double

/-- The least exponent of a significand, that of the subnormals. -/
def minExponent : Int := -1074

/-- The greatest exponent of a finite significand. -/
def maxExponent : Int := 971

/-- The bound of a significand: a canonical one is below `2^53`. -/
def significandBound : Nat := Nat.pow 2 53

/-- Whether `num / den < 2^k`, for a positive `den`. -/
def belowPowerOfTwo (num den : Nat) (k : Int) : Bool :=
  if 0 ≤ k then num < den * Nat.pow 2 k.toNat else num * Nat.pow 2 k.natAbs < den

/-- The quotient of `num` by `den · 2^s` as a quotient, remainder and
divisor of natural numbers. -/
def divideByPowerOfTwo (num den : Nat) (s : Int) : Nat × Nat × Nat :=
  if 0 ≤ s then
    let d := den * Nat.pow 2 s.toNat
    (num / d, num % d, d)
  else
    let n := num * Nat.pow 2 s.natAbs
    (n / den, n % den, den)

/-- Round `q + r / d` to an integer, ties to the even one. -/
def roundHalfEven (q r d : Nat) : Nat :=
  if 2 * r > d ∨ (2 * r = d ∧ q % 2 = 1) then q + 1 else q

/-- The nearest double to `±num / den`, ties to an even significand.  A zero
numerator (or denominator) gives a zero of the given sign. -/
def ofRatio (negative : Bool) (num den : Nat) : Double :=
  if num = 0 ∨ den = 0 then .finite negative 0 0
  else
    let guess : Int := (Nat.log2 num : Int) - (Nat.log2 den : Int)
    let lead := if belowPowerOfTwo num den guess then guess - 1 else guess
    let s := max (lead - 52) minExponent
    let (q, r, d) := divideByPowerOfTwo num den s
    let m := roundHalfEven q r d
    let (m, s) := if m = significandBound then (significandBound / 2, s + 1) else (m, s)
    if s > maxExponent then .infinite negative else .finite negative m s

/-- The double nearest to a natural number. -/
def ofNat (n : Nat) : Double :=
  ofRatio false n 1

instance (n : Nat) : OfNat Double n :=
  ⟨ofNat n⟩

/-- The double nearest to an integer. -/
def ofInt (i : Int) : Double :=
  ofRatio (i < 0) i.natAbs 1

/-- The double nearest to `±digits · 10^exponent`. -/
def ofDecimal (negative : Bool) (digits : Nat) (exponent : Int) : Double :=
  if 0 ≤ exponent then ofRatio negative (digits * Nat.pow 10 exponent.toNat) 1
  else ofRatio negative digits (Nat.pow 10 exponent.natAbs)

/-- Positive infinity. -/
def infinity : Double :=
  .infinite false

/-- The double of opposite sign. -/
def neg : Double → Double
  | .finite n m e => .finite (!n) m e
  | .infinite n => .infinite (!n)

/-- A significand with its sign. -/
def signed (negative : Bool) (m : Nat) : Int :=
  if negative then -(m : Int) else m

/-- Whether `a` is less than `b` as values. -/
def lt : Double → Double → Bool
  | .infinite n₁, .infinite n₂ => n₁ && !n₂
  | .infinite n, .finite .. => n
  | .finite .., .infinite n => !n
  | .finite n₁ m₁ e₁, .finite n₂ m₂ e₂ =>
    let e := min e₁ e₂
    signed n₁ m₁ * Nat.pow 2 (e₁ - e).toNat < signed n₂ m₂ * Nat.pow 2 (e₂ - e).toNat

/-- Whether `a` is at most `b` as values. -/
def le (a b : Double) : Bool :=
  !lt b a

/-- Whether `a` and `b` stand for the same value; the zeros are equal. -/
def eqv (a b : Double) : Bool :=
  !lt a b && !lt b a

/-- Whether a double is finite. -/
def isFinite : Double → Bool
  | .finite .. => true
  | .infinite _ => false

/-- Whether a double is an integer: finite, with no fraction. -/
def isInteger : Double → Bool
  | .finite _ m e => 0 ≤ e || m % Nat.pow 2 e.natAbs == 0
  | .infinite _ => false

/-- The integer part of a finite double, rounded toward zero. -/
def truncate : Double → Int
  | .finite n m e => signed n (if 0 ≤ e then m * Nat.pow 2 e.toNat else m / Nat.pow 2 e.natAbs)
  | .infinite _ => 0

/-- The position a double names in a sequence of `length` items, as a slice
bound: truncated toward zero, counted from the end when negative, and
clamped to the sequence. -/
def relativeIndex (x : Double) (length : Nat) : Nat :=
  match x with
  | .infinite true => 0
  | .infinite false => length
  | .finite .. =>
    let i := x.truncate
    if i < 0 then length - i.natAbs else min i.toNat length

/-- The least natural number not below a double, for a duration. -/
def ceilNat : Double → Nat
  | .finite true _ _ => 0
  | .finite false m e =>
    if 0 ≤ e then m * Nat.pow 2 e.toNat
    else (m + Nat.pow 2 e.natAbs - 1) / Nat.pow 2 e.natAbs
  | .infinite _ => 0

/-- The nearest double to `x · num / den`, for positive `num` and `den`. -/
def scale (x : Double) (num den : Nat) : Double :=
  match x with
  | .finite n m e =>
    if 0 ≤ e then ofRatio n (m * num * Nat.pow 2 e.toNat) den
    else ofRatio n (m * num) (den * Nat.pow 2 e.natAbs)
  | .infinite n => .infinite n

/-! ## Printing -/

/-- The number of decimal digits of `n`; one for zero. -/
def digitCount (n : Nat) : Nat :=
  (toString n).length

/-- Drop the trailing zeros of `d · 10^j` into the exponent. -/
def stripZeros (d : Nat) (j : Int) : Nat × Int :=
  if h : d ≠ 0 ∧ d % 10 = 0 then stripZeros (d / 10) (j + 1) else (d, j)
termination_by d
decreasing_by omega

/-- The candidate digits at exponent `j` for a positive double: a number
`d ≥ 1` with `d · 10^j` in the rounding interval, which runs from `low` to
`high` units of `2^k` and is closed when `closed`.  Of these, the one
nearest to `value` units, ties to the even one.  Both sides are compared
as natural numbers after scaling by `2^max(0,-k) · 10^max(0,-j)`. -/
def candidate (low value high : Nat) (k j : Int) (closed : Bool) : Option Nat :=
  let lift (x : Nat) : Nat := x * Nat.pow 2 k.toNat * Nat.pow 10 (-j).toNat
  let unit := Nat.pow 10 j.toNat * Nat.pow 2 (-k).toNat
  let lo := lift low
  let hi := lift high
  let dLo := max 1 (if closed then (lo + unit - 1) / unit else lo / unit + 1)
  let dHi := if closed then hi / unit else (hi - 1) / unit
  if dLo ≤ dHi then
    let v := lift value
    some (min (max (roundHalfEven (v / unit) (v % unit) unit) dLo) dHi)
  else none

/-- Search the exponents from `j` down for the first at which a candidate
exists; at most `fuel` of them. -/
def searchDigits (low value high : Nat) (k : Int) (closed : Bool) :
    Nat → Int → Option (Nat × Int)
  | 0, _ => none
  | fuel + 1, j =>
    match candidate low value high k j closed with
    | some d => some (d, j)
    | none => searchDigits low value high k closed fuel (j - 1)

/-- The shortest decimal `d · 10^j` that reads back as the positive double
`m · 2^e`, with no trailing zeros in `d`. -/
def shortest (m : Nat) (e : Int) : Nat × Int :=
  let k := e - 2
  let value := 4 * m
  let high := 4 * m + 2
  let low := if m = significandBound / 2 ∧ e > minExponent then 4 * m - 1 else 4 * m - 2
  let closed := m % 2 == 0
  let top : Int := digitCount (if 0 ≤ k then high * Nat.pow 2 k.toNat else high)
  let bottom : Int := min 0 e
  let exact : Nat × Int :=
    if 0 ≤ e then (m * Nat.pow 2 e.toNat, 0) else (m * Nat.pow 5 e.natAbs, e)
  let (d, j) := (searchDigits low value high k closed ((top - bottom).toNat + 2) top).getD exact
  stripZeros d j

/-- Lay out the digits `s` of a numeral whose decimal point stands `n`
places after its first digit. -/
def layout (s : String) (n : Int) : String :=
  let k : Int := s.length
  if k ≤ n ∧ n ≤ 21 then s ++ String.ofList (List.replicate (n - k).toNat '0')
  else if 0 < n ∧ n ≤ 21 then
    String.ofList (s.toList.take n.toNat) ++ "." ++ String.ofList (s.toList.drop n.toNat)
  else if -6 < n ∧ n ≤ 0 then
    "0." ++ String.ofList (List.replicate n.natAbs '0') ++ s
  else
    let x := n - 1
    let sign := if 0 ≤ x then "+" else "-"
    let head := String.ofList (s.toList.take 1)
    let tail := String.ofList (s.toList.drop 1)
    let mantissa := if tail.isEmpty then head else head ++ "." ++ tail
    mantissa ++ "e" ++ sign ++ toString x.natAbs

/-- The shortest numeral of a double; the zeros print as `0`. -/
def render : Double → String
  | .infinite n => if n then "-Infinity" else "Infinity"
  | .finite n m e =>
    if m = 0 then "0"
    else
      let (d, j) := shortest m e
      let s := toString d
      (if n then "-" else "") ++ layout s (s.length + j)

end Double
end HttpStub
