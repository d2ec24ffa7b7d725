import HttpStub.Http.Request
import HttpStub.Http.Response

/-!
# Routes and route tables

A route pairs a path pattern with the response it answers: status, content
type and body.  A table lists routes in order and has a fallback route for
paths that none matches.  Routing a target takes its path and answers with
the first route whose pattern equals it; patterns are exact, never
wildcards, so the fallback's pattern is only a label.

Two tables are built in.  The plain table answers `/health` with `OK`.  The
JSON table describes a small API at `/`, `/health` and `/users`.
-/

namespace HttpStub

/-- A canned answer for one path. -/
structure Route where
  pattern : String
  status : Double
  contentType : String
  body : String
  deriving DecidableEq, Repr

/-- The response a route answers with. -/
def Route.response (r : Route) : Response :=
  Response.text r.status r.contentType r.body

/-- Routes in order, and the route for every other path. -/
structure RouteTable where
  routes : List Route
  fallback : Route
  deriving DecidableEq, Repr

/-- The names of the built-in tables. -/
inductive RouteTableName where
  | plain
  | json
  deriving DecidableEq, Repr

namespace RouteTableName

/-- The name of a built-in table. -/
def name : RouteTableName → String
  | .plain => "plain"
  | .json => "json"

/-- The built-in table of this exact name. -/
def ofName? : String → Option RouteTableName
  | "plain" => some .plain
  | "json" => some .json
  | _ => none

end RouteTableName

namespace RouteTable

/-- Media type of plain text. -/
def plainText : String := "text/plain"

/-- Media type of JSON. -/
def jsonText : String := "application/json"

/-- The plain table: a health check, and `Not Found` for all else. -/
def plain : RouteTable where
  routes := [⟨"/health", 200, plainText, "OK"⟩]
  fallback := ⟨"*", 404, plainText, "Not Found"⟩

/-- The JSON table: an index, a health check and a user list. -/
def json : RouteTable where
  routes := [
    ⟨"/", 200, jsonText,
      "\x7b\"message\":\"Canned API Server\",\"version\":\"1.0.0\",\"endpoints\":[\"/\",\"/health\",\"/users\"]\x7d"⟩,
    ⟨"/health", 200, jsonText, "\x7b\"status\":\"healthy\"\x7d"⟩,
    ⟨"/users", 200, jsonText,
      "\x7b\"users\":[\x7b\"id\":1,\"name\":\"Alice\",\"email\":\"alice@example.com\"\x7d,\x7b\"id\":2,\"name\":\"Bob\",\"email\":\"bob@example.com\"\x7d]\x7d"⟩]
  fallback := ⟨"*", 404, jsonText, "\x7b\"error\":\"Not found\"\x7d"⟩

/-- The built-in table of a name. -/
def named : RouteTableName → RouteTable
  | .plain => plain
  | .json => json

/-- The route for a path: the first whose pattern equals it, or the
fallback. -/
def lookup (t : RouteTable) (path : String) : Route :=
  (t.routes.find? (·.pattern == path)).getD t.fallback

/-- The route for a target, by its path. -/
def route (t : RouteTable) (target : String) : Route :=
  t.lookup (pathOf target)

end RouteTable
end HttpStub
