import Intranet.Failure
import Intranet.Session.Handle

/-!
# Guards

Who may pass: anyone, those who are signed in, or administrators.
-/

namespace Intranet.Session

/-- A guard in front of a route or a field. -/
inductive Guard where
  | everyone
  | authenticated
  | admin
  deriving DecidableEq, Repr

/-- The message of a denial. -/
def denied : String := "Unauthorized"

namespace Guard

/-- The name of a guard. -/
def name : Guard → String
  | everyone => "Public"
  | authenticated => "Authenticated"
  | admin => "Admin"

/-- The guard of a name. -/
def ofName? (name : String) : Option Guard :=
  [everyone, authenticated, admin].find? fun guard => guard.name = name

/-- Lets a session pass and says who is signed in, or denies. -/
def check (guard : Guard) (session : Option Handle) : Except Failure (Option Principal) :=
  let principal := session.bind Handle.principal
  match guard with
  | everyone => .ok principal
  | authenticated => if principal.isSome then .ok principal else .error (.forbidden denied)
  | admin =>
    if principal.isSome && session.any Handle.isAdmin then .ok principal
    else .error (.forbidden denied)

end Guard

/-! ## What handlers ask for -/

/-- The session of a request. -/
def required (session : Option Handle) : Except Failure Handle :=
  match session with
  | some h => .ok h
  | none => .error (.internal ⟨"session middleware is not installed", []⟩)

/-- Who is signed in, behind a guard. -/
def someone (guard : Guard) (session : Option Handle) : Except Failure Principal := do
  match ← guard.check session with
  | some p => pure p
  | none => throw (.forbidden denied)

/-- Who is signed in. -/
def currentUser (session : Option Handle) : Except Failure Principal :=
  someone .authenticated session

/-- The administrator who is signed in. -/
def adminUser (session : Option Handle) : Except Failure Principal := someone .admin session

end Intranet.Session
