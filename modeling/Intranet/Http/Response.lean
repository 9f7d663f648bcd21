import Intranet.Fault
import Intranet.Json.Printer
import Intranet.Documents.Backend
import Intranet.Text.Utf8
import Intranet.Time.Instant

/-!
# HTTP responses

A response has a status, headers in order with names in small letters, and the bytes of a body.
Inside the portal it may also carry the fault it was made for, which the exception filter looks at.
-/

namespace Intranet.Http

/-- A response. -/
structure Response where
  status : Nat
  headers : List (String × String)
  body : List UInt8
  fault : Option Fault
  deriving DecidableEq, Repr

namespace Response

/-- A response without headers and body. -/
def empty (status : Nat) : Response := ⟨status, [], [], none⟩

/-- A response with a body of one content type. -/
def ofBytes (status : Nat) (contentType : String) (body : List UInt8) : Response :=
  ⟨status, [("content-type", contentType)], body, none⟩

/-- A plain text. -/
def text (status : Nat) (s : String) : Response :=
  ofBytes status "text/plain; charset=utf-8" (Utf8.encode s)

/-- A page. -/
def html (status : Nat) (s : String) : Response :=
  ofBytes status "text/html; charset=utf-8" (Utf8.encode s)

/-- A JSON value. -/
def json (status : Nat) (j : Json) : Response :=
  ofBytes status "application/json" (Utf8.encode j.text)

/-- Whether a text may be the value of a header: it has no control characters but tabs. -/
def isHeaderValue (s : String) : Bool :=
  s.toList.all fun c => c = '\t' || (0x20 ≤ c.toNat && c.toNat ≠ 0x7F)

/-- A response with another header at the end. -/
def withHeader (name value : String) (r : Response) : Response :=
  { r with headers := r.headers ++ [(name, value)] }

/-- The headers that set cookies. -/
def setCookies (r : Response) : List (String × String) :=
  r.headers.filter fun (name, _) => name = "set-cookie"

/-- A redirect. A location that no header can hold leaves a text that says so. -/
def redirect (location : String) : Response :=
  if isHeaderValue location then ⟨302, [("location", location)], [], none⟩
  else text 302 "failed to parse header value"

end Response

/-! ## Failures -/

/-- When a failure was answered, and the reference under which an internal one is reported. -/
structure Slip where
  time : Instant
  reference : String
  deriving DecidableEq, Repr

/-- What clients may read of a failure, in place of its message. -/
def publicMessage : Failure → String
  | .internal _ => "An internal server error occurred"
  | .database _ => "A database error occurred"
  | .invalid field _ => "Validation failed for field '" ++ field ++ "'"
  | f => f.message

/-- What clients may read of a failure besides that. -/
def publicDetails (slip : Slip) : Failure → List (String × Json)
  | .internal _ => [("details", .obj [("error_id", .str slip.reference)])]
  | .invalid field message =>
    [("details", .obj [("field", .str field), ("message", .str message)])]
  | _ => []

/-- The JSON body for a failure. -/
def failureBody (slip : Slip) (f : Failure) : Json :=
  .obj [("error", .obj (("code", .str f.code) ::
      publicDetails slip f ++ [("message", .str (publicMessage f))])),
    ("status", .nat f.status), ("timestamp", .str slip.time.textWithOffset)]

/-- The response for a failure. It carries the fault. -/
def Response.ofFailure (slip : Slip) (f : Failure) : Response :=
  { Response.json f.status (failureBody slip f) with fault := some f.fault }

/-- The response for a crash. It carries the fault. -/
def Response.ofCrash (payload : Payload) : Response :=
  { Response.empty 500 with fault := some (Fault.crashed payload) }

/-- The response for work that stopped. -/
def Response.ofStop (slip : Slip) : Stop → Response
  | .failed f => .ofFailure slip f
  | .crashed payload => .ofCrash payload

end Intranet.Http
