import Intranet.Http.Response
import Intranet.Text.Letter

/-!
# HTTP requests

A request as it arrives, with what was noted about its arrival.
-/

namespace Intranet.Http

/-- A request. The names of headers are in small letters. -/
structure Request where
  method : String
  path : String
  /-- What stands behind the question mark, if there is one. -/
  query : Option String
  headers : List (String × String)
  body : List UInt8
  /-- The reference under which an internal error of this request is reported. -/
  reference : String
  /-- Seconds since the portal was started. -/
  uptime : UInt64
  deriving Repr

namespace Request

/-- Path and query of a target. What stands behind a hash sign does not count. -/
def splitTarget (target : String) : String × Option String :=
  let cs := target.toList.takeWhile (· ≠ '#')
  match cs.span (· ≠ '?') with
  | (path, []) => (String.ofList path, none)
  | (path, _ :: query) => (String.ofList path, some (String.ofList query))

/-- The values of a header, in order. -/
def headerValues (r : Request) (name : String) : List String :=
  r.headers.filterMap fun (n, value) => if n = name then some value else none

/-- The headers with cookies. -/
def cookieHeaders (r : Request) : List String := r.headerValues "cookie"

end Request

/-! ## Bodies -/

/-- The most bytes that a body may have. -/
def maxBody : Nat := 64 * 1024 * 1024

/-- The response for a body that is too long. -/
def bodyTooLong : Response :=
  .text 413 "Failed to buffer the request body: length limit exceeded"

/-- The body of a request, unless it is too long. -/
def Request.bytes (r : Request) : Except Response (List UInt8) :=
  if r.body.length ≤ maxBody then .ok r.body else .error bodyTooLong

end Intranet.Http
