import HttpStub.Http.Route
import HttpStub.Config.Basic

/-!
# What to answer

The decision the server makes about one request, apart from reading and
writing it.  No request line is answered with `400 Bad Request`.  An empty
read is dismissed under the `close` policy and otherwise routed like any
request, by its (empty) path.  A routed request gets its route's response,
and its summary for the request log is its method and target, a dash
standing for an empty one.
-/

namespace HttpStub

/-- What the server does with a request. -/
inductive Plan where
  | respond (path : String) (response : Response) (summary : String)
  | dismiss
  deriving DecidableEq, Repr

namespace Plan

/-- The answer to a request without a request line. -/
def badRequest : Response :=
  Response.text 400 RouteTable.plainText "Bad Request"

/-- The summary of a request in the request log. -/
def summaryOf (line : RequestLine) : String :=
  let dash := fun (t : String) => if t.isEmpty then "-" else t
  s!"{dash line.method} {dash line.target}"

/-- The plan for what was read: a request, or `none` for bytes without a
request line. -/
def ofRequest (policy : EmptyRequestPolicy) (table : RouteTable) : Option Request → Plan
  | none => .respond "" badRequest "malformed request line"
  | some req =>
    if req.raw.isEmpty && policy == .close then .dismiss
    else .respond req.path (table.lookup req.path).response (summaryOf req.line)

end Plan
end HttpStub
