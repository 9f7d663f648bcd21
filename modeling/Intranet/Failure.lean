import Intranet.Text.Blank

/-!
# Failures of the portal

A handler, a resolver or a collaborator fails with one of these causes. Each has a status and a
code that clients see, and a message as it was raised.
-/

namespace Intranet

/-! ## Chains of causes -/

/-- An unforeseen error: its own message and those of the errors behind it, the nearest first. -/
structure Chain where
  outermost : String
  causes : List String
  deriving DecidableEq, Repr

namespace Chain

/-- A text whose lines after the first one are moved in. -/
def indented (margin : String) (text : String) : String :=
  String.intercalate ("\n" ++ margin) (text.splitOn "\n")

/-- A number at the end of five columns. -/
def column (n : Nat) : String :=
  let digits := toString n
  String.ofList (List.replicate (5 - digits.length) ' ') ++ digits

/-- Causes in a numbered list. -/
def numbered : Nat → List String → String
  | _, [] => ""
  | n, cause :: rest =>
    "\n" ++ column n ++ ": " ++ indented "       " cause ++ numbered (n + 1) rest

/-- The message with all its causes. A single cause has no number. -/
def detail (c : Chain) : String :=
  match c.causes with
  | [] => c.outermost
  | [cause] => c.outermost ++ "\n\nCaused by:\n    " ++ indented "    " cause
  | causes => c.outermost ++ "\n\nCaused by:" ++ numbered 0 causes

end Chain

/-! ## Causes -/

/-- Why an operation of the portal failed. -/
inductive Failure where
  /-- An error that nobody foresaw. -/
  | internal (chain : Chain)
  | badRequest (message : String)
  | notFound (message : String)
  /-- A user or a credential is missing. -/
  | unauthorized (message : String)
  /-- A guard said no. -/
  | forbidden (message : String)
  | invalid (field message : String)
  /-- Something that the portal depends on does not answer. -/
  | unavailable (message : String)
  | database (message : String)
  | session (message : String)
  /-- A collaborator answered with a failure of its own. -/
  | relayed (status : Nat) (message : String)
  deriving DecidableEq, Repr

namespace Failure

/-- The HTTP status of a failure. A status of a collaborator that is none becomes 502. -/
def status : Failure → Nat
  | internal _ | database _ | session _ => 500
  | badRequest _ | invalid _ _ => 400
  | notFound _ => 404
  | unauthorized _ => 401
  | forbidden _ => 403
  | unavailable _ => 503
  | relayed status _ => if 100 ≤ status ∧ status < 1000 then status else 502

/-- The code of a failure. -/
def code : Failure → String
  | internal _ => "INTERNAL_ERROR"
  | badRequest _ => "BAD_REQUEST"
  | notFound _ => "NOT_FOUND"
  | unauthorized _ => "UNAUTHORIZED"
  | forbidden _ => "FORBIDDEN"
  | invalid _ _ => "VALIDATION_ERROR"
  | unavailable _ => "SERVICE_UNAVAILABLE"
  | database _ => "DATABASE_ERROR"
  | session _ => "SESSION_ERROR"
  | relayed _ _ => "UPSTREAM_ERROR"

/-- The message as it was raised. -/
def message : Failure → String
  | internal chain => chain.outermost
  | badRequest m | notFound m | unauthorized m | forbidden m | unavailable m | database m
  | session m => m
  | invalid field m => field ++ ": " ++ m
  | relayed _ m => m

/-- The message with the kind of the failure in front. -/
def description : Failure → String
  | internal chain => "Internal error: " ++ chain.outermost
  | badRequest m => "Bad request: " ++ m
  | notFound m => "Not found: " ++ m
  | unauthorized m => "Unauthorized: " ++ m
  | forbidden m => "Forbidden: " ++ m
  | invalid field m => "Validation error on field '" ++ field ++ "': " ++ m
  | unavailable m => "Service unavailable: " ++ m
  | database m => "Database error: " ++ m
  | session m => "Session error: " ++ m
  | relayed status m => "Upstream error (" ++ toString status ++ "): " ++ m

/-- The error that lies behind a failure. -/
def behind? : Failure → Option String
  | internal chain => some chain.outermost
  | _ => none

end Failure

/-! ## Crashes -/

/-- What an operation broke down with. -/
inductive Payload where
  | text (s : String)
  /-- Something that is no text. -/
  | other
  deriving DecidableEq, Repr

/-- The text that is reported of it. -/
def Payload.report : Payload → String
  | text s => s
  | other => "unknown panic payload"

instance : Coe String Payload := ⟨.text⟩

instance : Coe Payload String := ⟨Payload.report⟩

/-! ## Checks -/

/-- The value, or the failure that there is none. -/
def orNotFound {α : Type} (entity : String) : Option α → Except Failure α
  | some a => .ok a
  | none => .error (.notFound (entity ++ " not found"))

/-- A character that separates the segments of a path. -/
def isSeparator (c : Char) : Bool := c = '/' || c = '\\'

/-- The segments of a path. -/
def segments (path : List Char) : List (List Char) := path.splitOnP isSeparator

/-- Refuses a document path that is blank, holds a NUL or has a segment `..`. -/
def checkPath (path : String) : Except Failure Unit :=
  if Text.isBlankText path then .error (.invalid "path" "Path cannot be empty")
  else if path.toList.contains '\x00' then .error (.invalid "path" "Path contains null characters")
  else if (segments path.toList).contains ['.', '.'] then
    .error (.invalid "path" "Path must not contain '..' segments")
  else .ok ()

/-- Refuses a text field that is blank. -/
def checkRequired (value field : String) : Except Failure Unit :=
  if Text.isBlankText value then .error (.invalid field "Value is required") else .ok ()

end Intranet
