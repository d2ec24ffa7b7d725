/-!
# Blank characters, trimming and words

A request line is split into words at runs of blanks, and configuration
values are trimmed of blanks at both ends.  Blanks here are the ASCII
controls from tab to carriage return, the space, the no-break space, the
Unicode space separators (U+1680, U+2000 to U+200A, U+202F, U+205F,
U+3000), the line and paragraph separators and the byte order mark.  The
next-line control U+0085, the Mongolian vowel separator U+180E and the
zero-width space U+200B are not blanks.
-/

namespace HttpStub
namespace Blank

/-- Whether a character is a blank. -/
def isBlank (c : Char) : Bool :=
  let n := c.toNat
  (9 ≤ n && n ≤ 13) || n == 32 || n == 0xA0 || n == 0x1680 ||
  (0x2000 ≤ n && n ≤ 0x200A) || n == 0x2028 || n == 0x2029 || n == 0x202F ||
  n == 0x205F || n == 0x3000 || n == 0xFEFF

/-- Drop blanks at both ends of a character list. -/
def trimChars (cs : List Char) : List Char :=
  ((cs.dropWhile isBlank).reverse.dropWhile isBlank).reverse

/-- Drop blanks at both ends of a string. -/
def trim (s : String) : String :=
  String.ofList (trimChars s.toList)

/-- Split off words, where `pending` holds the current word backwards. -/
def wordsFrom (pending : List Char) : List Char → List (List Char)
  | [] => if pending.isEmpty then [] else [pending.reverse]
  | c :: cs =>
    if isBlank c then
      if pending.isEmpty then wordsFrom [] cs else pending.reverse :: wordsFrom [] cs
    else wordsFrom (c :: pending) cs

/-- The maximal runs of non-blank characters, in order. -/
def words (s : String) : List String :=
  (wordsFrom [] s.toList).map String.ofList

end Blank
end HttpStub
