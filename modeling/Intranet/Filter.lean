import Intranet.Http.Response
import Intranet.Http.Status
import Intranet.Ledger

/-!
# The exception filter

Where failures end up. Over HTTP a denial becomes a redirect to the login page, an error of the
server becomes a page that tells its status alone, and any other response stays as it is. In
GraphQL a failure becomes an entry of the list of errors and keeps its message. Every fault is
written down and counted.
-/

namespace Intranet

/-- Where a fault happened. -/
inductive Place where
  | http (method path : String)
  | graphql (parentType field : String)
  deriving DecidableEq, Repr

/-- The place as the journal names it. -/
def Place.name : Place → String
  | http method path => method ++ " " ++ path
  | graphql parentType field => parentType ++ "." ++ field

/-- An entry of the list of errors in a GraphQL response. An error of the whole request has no
path. -/
structure GraphqlError where
  message : String
  path : List String
  code : String
  deriving DecidableEq, Repr

/-- An entry as clients see it. -/
def GraphqlError.json (e : GraphqlError) : Json :=
  .obj (("extensions", .obj [("code", .str e.code)]) :: ("message", .str e.message) ::
    if e.path.isEmpty then [] else [("path", .arr (e.path.map .str))])

/-- What becomes of a fault. -/
inductive Verdict where
  /-- The response stays as it is. -/
  | keep
  | redirect (location : String)
  | errorPage (status : Nat)
  | graphql (error : GraphqlError)
  deriving DecidableEq, Repr

namespace Fault

/-! ## What is written down -/

/-- The detail that an error line shows. -/
def shownDetail (f : Fault) : String :=
  match f.detail with
  | some detail => detail
  | none => if f.recognized then f.message else "no detail available"

/-- How a recognized fault is called where it happened. -/
def label (f : Fault) : Place → String
  | .http _ _ => toString f.status
  | .graphql _ _ => f.code

/-- Whether a fault is an internal error of an HTTP request. -/
def isInternalAt (f : Fault) : Place → Bool
  | .http _ _ => f.status = 500
  | .graphql _ _ => false

/-- The line for a fault. Denials are of no concern; a fault raised on purpose is a warning, unless
it is an internal error over HTTP. -/
def line (f : Fault) (place : Place) : Line :=
  if f.isAuthorization then ⟨.debug, place.name ++ " denied: " ++ f.message⟩
  else if f.recognized && !f.isInternalAt place then
    ⟨.warn, place.name ++ " failed with " ++ f.label place ++ ": " ++ f.message⟩
  else ⟨.error, place.name ++ " failed: " ++ f.message ++ "\n" ++ f.shownDetail⟩

/-! ## What becomes of it -/

/-- The verdict on a fault. -/
def verdict (loginPath : String) (f : Fault) : Place → Verdict
  | .http _ _ =>
    if f.status = 403 then .redirect loginPath
    else if Http.isServerError f.status then .errorPage f.status
    else .keep
  | .graphql _ field => .graphql ⟨f.message, [field], f.code⟩

/-- Writes a fault down and counts it. -/
def record (f : Fault) (place : Place) (l : Ledger) : Ledger :=
  let l := { l with journal := l.journal ++ [f.line place] }
  let l := if f.isAuthorization then l else l.count .countFault
  match place with
  | .http _ _ => l
  | .graphql _ _ => l.count .countGraphqlError

end Fault

/-! ## Over HTTP -/

/-- The page for a status. -/
def errorPageText (status : Nat) : String :=
  let code := toString status
  let reason := (Http.reason? status).getD "Error"
  "<!DOCTYPE html>\n<html lang=\"en\">\n<head><meta charset=\"utf-8\"><title>" ++ code ++ " " ++
    reason ++ "</title></head>\n<body>\n<h1>" ++ code ++ "</h1>\n<p>" ++ reason ++
    "</p>\n<p>Something went wrong on our side. Please try again later.</p>\n" ++
    "<p><a href=\"/\">Back to the portal</a></p>\n</body>\n</html>\n"

open Http in
/-- The response after a verdict. A response that is put in the place of another takes over its
cookies. -/
def Verdict.apply (verdict : Verdict) (inner : Response) : Response :=
  let inPlaceOf (r : Response) : Response := { r with headers := r.headers ++ inner.setCookies }
  match verdict with
  | .redirect location => inPlaceOf (.redirect location)
  | .errorPage status => inPlaceOf (.html status (errorPageText status))
  | .keep | .graphql _ => inner

open Http in
/-- The response that leaves the portal, and what the filter leaves behind. -/
def filterHttp (loginPath method path : String) (inner : Response) (l : Ledger) :
    Response × Ledger :=
  match inner.fault with
  | none => (inner, l)
  | some fault =>
    let place := Place.http method path
    ((fault.verdict loginPath place).apply inner, fault.record place l)

end Intranet
