import HttpStub.Text.Utf8
import HttpStub.Text.Double

/-!
# Responses and their bytes

A response has a status, its reason phrase, headers in insertion order and
a body.  The status is a number like any other, a double, and is written as
the shortest numeral of that double.  Headers behave as an ordered map: setting a name that is present
replaces its value in place, and a new name goes last.

Writing a response gives the status line `HTTP/1.1 <status> <reason>`, one
`name: value` line per header, an empty line, and the body, with CR LF
after each line.  Before writing, `Content-Length` is set to the body's
byte count, and `Connection: close` is added unless a `Connection` header
is there already.
-/

namespace HttpStub

/-- Header fields in insertion order, one value per name. -/
abbrev Headers := List (String × String)

namespace Headers

/-- Whether a header of this exact name is present. -/
def contains (hs : Headers) (name : String) : Bool :=
  hs.any (·.1 == name)

/-- Set a header: replace the value of a present name in place, or append. -/
def set (hs : Headers) (name value : String) : Headers :=
  if hs.contains name then hs.map fun h => if h.1 == name then (name, value) else h
  else hs ++ [(name, value)]

/-- Headers from pairs in order: a repeated name keeps its first place and
takes its last value. -/
def ofPairs (pairs : List (String × String)) : Headers :=
  pairs.foldl (fun hs p => hs.set p.1 p.2) []

end Headers

/-- The reason phrase of a status: that of a known code of the same value,
and `Unknown` for any other number. -/
def reasonPhrase (status : Double) : String :=
  if status.eqv 200 then "OK"
  else if status.eqv 400 then "Bad Request"
  else if status.eqv 404 then "Not Found"
  else "Unknown"

/-- An HTTP response. -/
structure Response where
  status : Double
  reason : String
  headers : Headers
  body : List UInt8
  deriving DecidableEq, Repr

namespace Response

/-- A response with one `Content-Type` header and a text body. -/
def text (status : Double) (contentType body : String) : Response :=
  ⟨status, reasonPhrase status, [("Content-Type", contentType)], Utf8.encode body⟩

/-- The headers as written: with the body length, and with a connection
header that closes unless one is set. -/
def wireHeaders (r : Response) : Headers :=
  let hs := r.headers.set "Content-Length" (toString r.body.length)
  if hs.contains "Connection" then hs else hs.set "Connection" "close"

/-- The text before the body: status line, header lines and a blank line. -/
def head (r : Response) : String :=
  let lines := s!"HTTP/1.1 {r.status.render} {r.reason}" ::
    (r.wireHeaders.map fun h => h.1 ++ ": " ++ h.2)
  String.intercalate "\r\n" (lines ++ ["", ""])

/-- The bytes of a response. -/
def serialize (r : Response) : List UInt8 :=
  Utf8.encode r.head ++ r.body

end Response
end HttpStub
