/-!
# Decimal digit strings

A decimal numeral here is a non-empty run of the ASCII digits 0 to 9,
leading zeros allowed, and nothing else: no sign, point, exponent or
separator.  Its value is exact.
-/

namespace HttpStub
namespace Decimal

/-- Whether a character is an ASCII digit. -/
def isDigit (c : Char) : Bool :=
  '0' ≤ c && c ≤ '9'

/-- The value of digits read left to right after `acc`. -/
def valueFrom (acc : Nat) : List Char → Nat
  | [] => acc
  | c :: cs => valueFrom (acc * 10 + (c.toNat - 48)) cs

/-- The value of a decimal numeral, or `none` when the text is not one. -/
def parse? (s : String) : Option Nat :=
  let cs := s.toList
  if !cs.isEmpty && cs.all isDigit then some (valueFrom 0 cs) else none

end Decimal
end HttpStub
