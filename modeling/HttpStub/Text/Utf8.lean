/-!
# UTF-8 bytes and text

Strings travel as UTF-8 bytes.  Encoding writes each scalar value in its
shortest form.  Decoding is the WHATWG decoder in replacement mode: each
maximal subpart of an ill-formed sequence becomes one U+FFFD, and so does a
sequence that the end of the input cuts short.  A decoder for text received
from a peer also drops one leading byte order mark.

A byte string is well formed exactly when decoding and encoding it again
gives it back, which is how `isWellFormed` decides it.

Text handed to the server may also hold lone UTF-16 surrogate units, which
no scalar value is.  Text therefore carries a mark, U+10FFFF, before the
stand-in of a lone surrogate unit `u`, the character `u + 0xF0000` (U+FD800
to U+FDFFF), and writes a mark that is part of the text twice; every other
character, U+FD800 to U+FDFFF included, stands for itself.  Operations on
text pass the marks along like any other character.  The scalar values of
text read a doubled mark as one mark and a marked stand-in as U+FFFD, which
is what an encoder of UTF-16 text writes for a lone surrogate; encoding
writes those scalar values, and decoding writes the text of the scalar
values it reads.
-/

namespace HttpStub
namespace Utf8

/-- The replacement character that stands for ill-formed input. -/
def replacement : Char := '�'

/-- The distance from a surrogate unit to the character that stands in for
it. -/
def standInOffset : Nat := 0xF0000

/-- Whether a character stands in for a lone surrogate unit. -/
def isStandIn (c : Char) : Bool :=
  0xD800 + standInOffset ≤ c.toNat && c.toNat ≤ 0xDFFF + standInOffset

/-- The mark before the stand-in of a lone surrogate unit. -/
def mark : Char := Char.ofNat 0x10FFFF

/-- The text of scalar values: each mark is written twice. -/
def escape : List Char → List Char
  | [] => []
  | c :: cs => if c = mark then mark :: mark :: escape cs else c :: escape cs

/-- The scalar values of text read after a mark, if `marked`: a doubled
mark is one mark, and a marked stand-in is U+FFFD; a mark before anything
else is itself. -/
def scalarsAfter : Bool → List Char → List Char
  | false, [] => []
  | true, [] => [mark]
  | false, c :: cs => if c = mark then scalarsAfter true cs else c :: scalarsAfter false cs
  | true, c :: cs =>
    if c = mark then mark :: scalarsAfter false cs
    else if isStandIn c then replacement :: scalarsAfter false cs
    else mark :: c :: scalarsAfter false cs

/-- The scalar values of text. -/
def scalars (cs : List Char) : List Char :=
  scalarsAfter false cs

/-- The UTF-8 bytes of text: those of its scalar values. -/
def encode (s : String) : List UInt8 :=
  (scalars s.toList).flatMap String.utf8EncodeChar

/-- A continuation byte inside the bounds that the lead byte allows. -/
def within (lo hi b : UInt8) : Bool :=
  lo ≤ b && b ≤ hi

/-- The scalar value of a two-byte sequence. -/
def scalar2 (b0 b1 : UInt8) : Char :=
  Char.ofNat ((b0.toNat % 32) * 64 + b1.toNat % 64)

/-- The scalar value of a three-byte sequence. -/
def scalar3 (b0 b1 b2 : UInt8) : Char :=
  Char.ofNat ((b0.toNat % 16) * 4096 + (b1.toNat % 64) * 64 + b2.toNat % 64)

/-- The scalar value of a four-byte sequence. -/
def scalar4 (b0 b1 b2 b3 : UInt8) : Char :=
  Char.ofNat ((b0.toNat % 8) * 262144 + (b1.toNat % 64) * 4096 +
    (b2.toNat % 64) * 64 + b3.toNat % 64)

/-- Lower bound of the second byte after a three- or four-byte lead.  The
bounds exclude overlong forms, surrogates and values above U+10FFFF. -/
def secondLow (lead : UInt8) : UInt8 :=
  if lead = 0xE0 then 0xA0 else if lead = 0xF0 then 0x90 else 0x80

/-- Upper bound of the second byte after a three- or four-byte lead. -/
def secondHigh (lead : UInt8) : UInt8 :=
  if lead = 0xED then 0x9F else if lead = 0xF4 then 0x8F else 0xBF

/-- Decode bytes, replacing each maximal ill-formed subpart by U+FFFD. -/
def decodeChars : List UInt8 → List Char
  | [] => []
  | b0 :: rest =>
    if b0 < 0x80 then
      Char.ofNat b0.toNat :: decodeChars rest
    else if 0xC2 ≤ b0 && b0 ≤ 0xDF then
      match _h1 : rest with
      | [] => [replacement]
      | b1 :: rest1 =>
        if within 0x80 0xBF b1 then scalar2 b0 b1 :: decodeChars rest1
        else replacement :: decodeChars rest
    else if 0xE0 ≤ b0 && b0 ≤ 0xEF then
      match _h1 : rest with
      | [] => [replacement]
      | b1 :: rest1 =>
        if within (secondLow b0) (secondHigh b0) b1 then
          match _h2 : rest1 with
          | [] => [replacement]
          | b2 :: rest2 =>
            if within 0x80 0xBF b2 then scalar3 b0 b1 b2 :: decodeChars rest2
            else replacement :: decodeChars rest1
        else replacement :: decodeChars rest
    else if 0xF0 ≤ b0 && b0 ≤ 0xF4 then
      match _h1 : rest with
      | [] => [replacement]
      | b1 :: rest1 =>
        if within (secondLow b0) (secondHigh b0) b1 then
          match _h2 : rest1 with
          | [] => [replacement]
          | b2 :: rest2 =>
            if within 0x80 0xBF b2 then
              match _h3 : rest2 with
              | [] => [replacement]
              | b3 :: rest3 =>
                if within 0x80 0xBF b3 then scalar4 b0 b1 b2 b3 :: decodeChars rest3
                else replacement :: decodeChars rest2
            else replacement :: decodeChars rest1
        else replacement :: decodeChars rest
    else
      replacement :: decodeChars rest
termination_by bytes => bytes.length
decreasing_by all_goals (subst_vars; simp; try omega)

/-- Decode bytes into text, keeping a leading byte order mark. -/
def decode (bytes : List UInt8) : String :=
  String.ofList (escape (decodeChars bytes))

/-- The byte order mark as it is written in UTF-8. -/
def byteOrderMark : List UInt8 := [0xEF, 0xBB, 0xBF]

/-- Drop one leading byte order mark, if there is one. -/
def dropByteOrderMark : List UInt8 → List UInt8
  | 0xEF :: 0xBB :: 0xBF :: rest => rest
  | bytes => bytes

/-- Decode text received from a peer: one leading byte order mark is not
part of the text. -/
def decodeText (bytes : List UInt8) : String :=
  decode (dropByteOrderMark bytes)

/-- Bytes are well formed UTF-8 when decoding loses nothing. -/
def isWellFormed (bytes : List UInt8) : Bool :=
  encode (decode bytes) == bytes

/-- The text of well formed bytes, with a leading byte order mark kept as
U+FEFF, or `none` for ill-formed bytes. -/
def decode? (bytes : List UInt8) : Option String :=
  if isWellFormed bytes then some (decode bytes) else none

end Utf8
end HttpStub
