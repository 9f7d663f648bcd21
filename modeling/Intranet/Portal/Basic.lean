import Intranet.Documents.Gateway
import Intranet.Http.Request
import Intranet.Session.Guard
import Intranet.Session.Keeper

/-!
# Handling requests

What handlers and resolvers work on: the ledger, the session of their request, and the identifiers
that were drawn. They cannot reach the session store.
-/

namespace Intranet

/-- What the handler of a request works on. -/
structure Scene where
  ledger : Ledger
  session : Session.Handle
  /-- How many identifiers were drawn. -/
  drawn : Nat

/-- Work on a scene that may stop before its end. -/
abbrev Handling (α : Type) : Type := Task Scene α

namespace Handling

/-- Work on the ledger alone. -/
def onLedger {α : Type} (t : Task Ledger α) : Handling α :=
  t.zoom Scene.ledger fun ledger scene => { scene with ledger := ledger }

/-- The session. -/
def session : Handling Session.Handle := do return (← get).session

/-- Changes the session. -/
def changeSession (f : Session.Handle → Session.Handle) : Handling Unit :=
  modify fun scene => { scene with session := f scene.session }

/-- Lets the session pass a guard; a denial is counted. -/
def guarded (guard : Session.Guard) : Handling (Option Principal) := do
  match guard.check (some (← session)) with
  | .ok principal => pure principal
  | .error denial =>
    onLedger (Task.count .countAuthDenied)
    Task.fail denial

/-- Who asks for a file operation. -/
def caller : Handling Documents.Caller := do
  let h ← session
  return ⟨h.principal, h.credential⟩

end Handling

end Intranet
