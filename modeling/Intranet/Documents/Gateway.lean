import Intranet.Ledger

/-!
# The document gateway

File operations are handed on to the document backend for the person who is signed in, and only
when a path, a person and that person's credential are there. What the backend answers is passed on
unchanged.
-/

namespace Intranet.Documents

/-- Who asks for a file operation. -/
structure Caller where
  user : Option Principal
  credential : Option String
  deriving DecidableEq, Repr

/-- The message of a refusal. -/
def notAuthorized : String := "Not authorized"

/-- The credential of a caller, if a path, a person and a secret that is not empty are all
there. -/
def credential? (caller : Caller) (path : String) : Option Credential :=
  match caller.user, caller.credential with
  | some user, some secret =>
    if Text.isBlankText path || secret.isEmpty then none else some ⟨user.login, secret⟩
  | _, _ => none

/-- The credential of a caller; a refusal is counted and written down. -/
def requireCredential (operation : String) (caller : Caller) (path : String) :
    Task Ledger Credential := do
  match credential? caller path with
  | some credential => pure credential
  | none =>
    Task.count .countFileDenied
    Task.write .debug
      ("Refusing " ++ operation ++ " for '" ++ path ++ "': missing path, user or credential")
    Task.fail (.unauthorized notAuthorized)

/-- The credential of a caller for a path that documents may have; the operation is counted and
written down. -/
def authorize (operation : String) (caller : Caller) (path : String) : Task Ledger Credential := do
  let credential ← requireCredential operation caller path
  Task.check (checkPath path)
  Task.count .countFileOp
  Task.write .debug (operation ++ " " ++ path ++ " for " ++ credential.username)
  pure credential

/-- Asks the backend. -/
def ask (backend : Backend) (call : Call) : Task Ledger call.request.Reply := do
  let earlier := (← get).documentCalls
  modify (Ledger.addDocumentCall call)
  Task.ofExcept (backend earlier call)

/-- Carries out a request of a caller. -/
def perform (backend : Backend) (caller : Caller) (path : String) (request : Request) :
    Task Ledger request.Reply := do
  let credential ← authorize request.name caller path
  ask backend ⟨request, credential, path⟩

end Intranet.Documents
