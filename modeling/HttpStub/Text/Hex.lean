/-!
# Hexadecimal bytes

Bytes that are not text are shown as lowercase hexadecimal, two digits a
byte.  Reading accepts digits of either case and refuses an odd count.
-/

namespace HttpStub
namespace Hex

/-- The lowercase digit of a value below sixteen. -/
def digit (n : Nat) : Char :=
  if n < 10 then Char.ofNat (48 + n) else Char.ofNat (87 + n)

/-- The two digits of one byte. -/
def ofByte (b : UInt8) : List Char :=
  [digit (b.toNat / 16), digit (b.toNat % 16)]

/-- Lowercase hexadecimal text of a byte string. -/
def render (bytes : List UInt8) : String :=
  String.ofList (bytes.flatMap ofByte)

/-- The value of one hexadecimal digit of either case. -/
def digitValue? (c : Char) : Option Nat :=
  if '0' ≤ c && c ≤ '9' then some (c.toNat - 48)
  else if 'a' ≤ c && c ≤ 'f' then some (c.toNat - 87)
  else if 'A' ≤ c && c ≤ 'F' then some (c.toNat - 55)
  else none

/-- Read pairs of digits into bytes. -/
def readPairs : List Char → Option (List UInt8)
  | [] => some []
  | [_] => none
  | hi :: lo :: rest => do
    let h ← digitValue? hi
    let l ← digitValue? lo
    let tail ← readPairs rest
    pure ((h * 16 + l).toUInt8 :: tail)

/-- The bytes written by hexadecimal text, or `none` for malformed text. -/
def parse? (s : String) : Option (List UInt8) :=
  readPairs s.toList

end Hex
end HttpStub
