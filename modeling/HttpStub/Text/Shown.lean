import HttpStub.Text.Utf8
import HttpStub.Text.Hex

/-!
# Bytes shown as text or hexadecimal

Bytes that are well formed UTF-8 are shown as their text, a leading byte
order mark kept; any other bytes are shown as lowercase hexadecimal.
Reading a shown form back gives the bytes.
-/

namespace HttpStub

/-- How a byte string is shown. -/
inductive Shown where
  | text (s : String)
  | hex (digits : String)
  deriving DecidableEq, Repr

namespace Shown

/-- Show bytes: as text when they are well formed, else in hexadecimal. -/
def ofBytes (bytes : List UInt8) : Shown :=
  match Utf8.decode? bytes with
  | some s => .text s
  | none => .hex (Hex.render bytes)

/-- The bytes a shown form stands for, or `none` for malformed digits. -/
def toBytes? : Shown → Option (List UInt8)
  | .text s => some (Utf8.encode s)
  | .hex digits => Hex.parse? digits

end Shown
end HttpStub
