import Intranet.Failure

/-!
# Faults

What the exception filter knows of a failure, whichever transport it happened on.
-/

namespace Intranet

/-- A failure as the exception filter sees it. -/
structure Fault where
  status : Nat
  code : String
  /-- The message as it was raised. -/
  message : String
  /-- What lies behind the message, for the journal alone. -/
  detail : Option String
  /-- Whether the failure was raised on purpose. -/
  recognized : Bool
  deriving DecidableEq, Repr

namespace Fault

/-- A fault that nobody raised on purpose. -/
def unrecognized (message : String) (detail : Option String) : Fault :=
  ⟨500, "INTERNAL_ERROR", message, detail, false⟩

/-- The fault of a handler that crashed. -/
def crashed (payload : Payload) : Fault := unrecognized "Handler panicked" (some payload)

/-- Whether access was denied. -/
def isAuthorization (f : Fault) : Bool := f.status = 401 || f.status = 403

end Fault

/-- The detail that goes to the journal. -/
def Failure.detail : Failure → Option String
  | .internal chain => some chain.detail
  | .database m | .session m => some m
  | _ => none

/-- Whether a failure was raised on purpose. -/
def Failure.recognized : Failure → Bool
  | .internal _ => false
  | _ => true

/-- The fault of a failure. -/
def Failure.fault (f : Failure) : Fault := ⟨f.status, f.code, f.message, f.detail, f.recognized⟩

end Intranet
