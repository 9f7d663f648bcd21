import Intranet.Http.MediaType
import Intranet.Http.Request
import Intranet.Json.Decoder

/-!
# JSON bodies

The value that the body of a request stands for, or why it is refused.
-/

namespace Intranet.Http

/-- Why a body is refused. -/
inductive Rejection where
  | notJson
  | tooLong
  | malformed (f : Json.Failure)
  | mismatch (f : Json.Failure)
  deriving DecidableEq, Repr

namespace Rejection

/-- The status of a refusal. -/
def status : Rejection → Nat
  | notJson => 415
  | tooLong => 413
  | malformed _ => 400
  | mismatch _ => 422

/-- The text of a refusal. -/
def message : Rejection → String
  | notJson => "Expected request with `Content-Type: application/json`"
  | tooLong => "Failed to buffer the request body: length limit exceeded"
  | malformed f => "Failed to parse the request body as JSON: " ++ f.located
  | mismatch f => "Failed to deserialize the JSON body into the target type: " ++ f.located

/-- The response of a refusal. It carries no fault. -/
def response (r : Rejection) : Response := .text r.status r.message

end Rejection

/-- The value of a JSON body. -/
def Request.json {α : Type} (r : Request) (shape : Json.Decoder α) : Except Rejection α :=
  if !((r.headerValues "content-type").head?.any MediaType.isJson) then .error .notJson
  else if r.body.length > maxBody then .error .tooLong
  else
    match shape.run r.body with
    | .ok a => .ok a
    | .error f => .error (if f.cause.category = .data then .mismatch f else .malformed f)

end Intranet.Http
