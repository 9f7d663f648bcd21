import Intranet.Portal.Routes

/-!
# Serving requests

From the outside in: the exception filter, the session, a net for crashes, and the handler. The
session is found before the handler runs and written back after it; when the store refuses a call,
the response of the handler is dropped.
-/

namespace Intranet

namespace Portal

open Http (Request Response Slip)
open Session (Store World Serving Storing Handle)

variable {σ : Type}

/-- When a request of a world is answered, and its reference. -/
def slip (r : Request) (w : World σ) : Slip := ⟨.ofMillis w.clock, r.reference⟩

/-- Handles a request with its session. Work that stops has the response of its failure or
crash. -/
def handleWith (p : Portal) (r : Request) (session : Handle) (w : World σ) :
    Response × Handle × World σ :=
  let (result, scene) := (p.handle r).run.run ⟨w.ledger, session, w.drawn⟩
  let response := match result with
    | .ok response => response
    | .error stop => .ofStop (slip r w) stop
  (response, scene.session, { w with ledger := scene.ledger, drawn := scene.drawn })

/-- Writes a line about the store and gives the response of a failure. -/
def storeFailed (r : Request) (text : String) (f : Failure) : Serving σ Response := do
  modify fun w => { w with ledger := w.ledger.write .error text }
  return .ofFailure (slip r (← get)) f

/-- Handles a request between finding its session and writing it back. -/
def withSession (p : Portal) (s : Store σ) (r : Request) : Serving σ Response := do
  match ← (p.keeper.resolve s r.cookieHeaders).run with
  | .error e =>
    storeFailed r ("Failed to resolve session: " ++ e.message)
      (.unavailable "Session store unavailable")
  | .ok session =>
    let (response, session, w) := p.handleWith r session (← get)
    set w
    match ← (p.keeper.carryOut s session.takePlan.1).run with
    | .error e => storeFailed r ("Failed to persist session: " ++ e.message) e.failure
    | .ok none => return response
    | .ok (some cookie) => return response.withHeader "set-cookie" cookie

/-- Names the methods of the route if there is no handler for this one, and leaves out the body
when only headers are asked for. -/
def finish (r : Request) (response : Response) : Response :=
  let response := match allowed? r with
    | some methods => response.withHeader "allow" methods
    | none => response
  if r.method = "HEAD" then { response with body := [] } else response

/-- Serves a request. -/
def serve (p : Portal) (s : Store σ) (r : Request) : Serving σ Response := do
  let inner ← p.withSession s r
  let w ← get
  let (response, ledger) := filterHttp p.loginPath r.method r.path inner w.ledger
  set { w with ledger := ledger }
  return finish r response

end Portal

end Intranet
