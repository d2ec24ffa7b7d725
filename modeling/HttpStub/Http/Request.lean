import HttpStub.Text.Utf8
import HttpStub.Text.Blank
import HttpStub.Text.Double

/-!
# Request lines and requests

The server reads a request once and looks only at its first line: the bytes
before the first CR LF, or all of them when there is none.  That line,
decoded as UTF-8 text without a leading byte order mark and trimmed of
blanks, splits into words.  The first word is the method and the second the
target, which must start with a slash.  A third word that starts with
`HTTP/` gives the version after that prefix; otherwise the version is empty.

The path of a target is its part before the first question mark.  An empty
read makes the empty request, whose method, target, version and path are
all empty.
-/

namespace HttpStub

/-- Carriage return and line feed. -/
def crlf : List UInt8 := [13, 10]

namespace Bytes

/-- Whether `needle` is a prefix of `hay`. -/
def startsWith : List UInt8 → List UInt8 → Bool
  | [], _ => true
  | _ :: _, [] => false
  | n :: ns, h :: hs => n == h && startsWith ns hs

/-- The least position at which `needle` occurs in `hay`, counting from `pos`. -/
def findFrom (needle : List UInt8) (pos : Nat) : List UInt8 → Option Nat
  | [] => if needle.isEmpty then some pos else none
  | h :: hs => if startsWith needle (h :: hs) then some pos else findFrom needle (pos + 1) hs

/-- The least position at which `needle` occurs in `hay`. -/
def find? (needle hay : List UInt8) : Option Nat :=
  findFrom needle 0 hay

/-- The bytes before position `stop`, a slice bound (see
`Double.relativeIndex`): a negative stop counts from the end, so `-k`
leaves out the last `k` bytes, and everything when there are no more than
`k`. -/
def upTo (stop : Double) (bytes : List UInt8) : List UInt8 :=
  bytes.take (stop.relativeIndex bytes.length)

end Bytes

/-- The bytes of the first line: those before the first CR LF, or all. -/
def firstLine (raw : List UInt8) : List UInt8 :=
  match Bytes.find? crlf raw with
  | some n => raw.take n
  | none => raw

/-- The three parts of a request line. -/
structure RequestLine where
  method : String
  target : String
  version : String
  deriving DecidableEq, Repr

namespace RequestLine

/-- The version named by a protocol word, or empty when the word is not of
the form `HTTP/...`. -/
def versionOf : Option String → String
  | some w => if w.startsWith "HTTP/" then String.ofList (w.toList.drop 5) else ""
  | none => ""

/-- Read a request line from its words. -/
def ofWords : List String → Option RequestLine
  | m :: t :: rest =>
    if t.startsWith "/" then some ⟨m, t, versionOf rest.head?⟩ else none
  | _ => none

/-- Read the request line of decoded text. -/
def ofText (line : String) : Option RequestLine :=
  ofWords (Blank.words line)

/-- Read the request line at the start of raw bytes. -/
def parse? (raw : List UInt8) : Option RequestLine :=
  ofText (Utf8.decodeText (firstLine raw))

end RequestLine

/-- The path of a target: its part before the first question mark. -/
def pathOf (target : String) : String :=
  String.ofList (target.toList.takeWhile (· != '?'))

/-- A request as the server sees it: the request line, the path it routes
on, and the bytes it was read from. -/
structure Request where
  line : RequestLine
  path : String
  raw : List UInt8
  deriving DecidableEq, Repr

namespace Request

/-- Build the request of raw bytes.  No bytes give the empty request; bytes
without a request line give `none`. -/
def parse? (raw : List UInt8) : Option Request :=
  if raw.isEmpty then some ⟨⟨"", "", ""⟩, "", raw⟩
  else (RequestLine.parse? raw).map fun line => ⟨line, pathOf line.target, raw⟩

end Request
end HttpStub
