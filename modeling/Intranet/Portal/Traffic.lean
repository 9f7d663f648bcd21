import Intranet.Portal.Serve

/-!
# Requests in flight

Many requests are served at a time. The work on each is cut where another one may come in between:
its session is found, its handler runs, and the plan of the session is carried out one call to the
store after the other. Nobody locks anything, so what a request found in the store may have changed
when its plan is carried out.
-/

namespace Intranet

namespace Session

/-- How far a plan was carried out. -/
inductive Progress where
  /-- This is left of it. -/
  | left (plan : Plan)
  /-- All of it, with the cookie header to send, if any. -/
  | done (cookie : Option String)

/-- Makes the next call to the store that a plan asks for, if it asks for another one. -/
def Keeper.carryOn {σ : Type} (k : Keeper) (s : Store σ) : Plan → Storing σ Progress
  | .nothing => pure (.done none)
  | .save record (some old) => do
    Storing.remove s old
    pure (.left (.save record none))
  | .save record none => do
    let expiresAt ← Storing.orCrash (expiry (← get).clock k.ttl)
    Storing.save s { record with expiresAt := expiresAt } (k.ttl * 1000)
    pure (.done (some (k.sessionCookie record.id)))
  | .remove [] => pure (.done (some k.clearingCookie))
  | .remove (id :: rest) => do
    Storing.remove s id
    pure (.left (.remove rest))

end Session

open Http (Request Response)
open Session (Store World Serving Handle Plan Crash)

/-- How far the work on a request has come. -/
inductive Stage where
  | arrived
  /-- Its session is found. -/
  | opened (session : Handle)
  /-- Its handler has run; this is left of the plan. -/
  | closing (response : Response) (plan : Plan)
  | answered (response : Response)
  /-- The work broke down, and there is no answer. -/
  | broken (crash : Crash)

/-- A request that is being served. -/
structure Flight where
  request : Request
  stage : Stage

/-- The world with all requests that ever came in, in order. -/
structure Traffic (σ : Type) where
  world : World σ
  flights : List Flight

/-- What may happen next. -/
inductive Move where
  | arrive (r : Request)
  /-- The request with this number makes a step. -/
  | advance (i : Nat)
  /-- Nothing for so many milliseconds. -/
  | pause (ms : Nat)

namespace Portal

variable {σ : Type}

/-- Lets a response go, past the filter. -/
def release (p : Portal) (r : Request) (inner : Response) : Serving σ Response := do
  let w ← get
  let (response, ledger) := filterHttp p.loginPath r.method r.path inner w.ledger
  set { w with ledger := ledger }
  return finish r response

/-- The next step of the work on a request. It makes one call to the store at most. -/
def proceed (p : Portal) (s : Store σ) (r : Request) : Stage → Serving σ Stage
  | .arrived => do
    match ← (p.keeper.resolve s r.cookieHeaders).run with
    | .error e =>
      let inner ← storeFailed r ("Failed to resolve session: " ++ e.message)
        (.unavailable "Session store unavailable")
      return .answered (← p.release r inner)
    | .ok session => return .opened session
  | .opened session => do
    let (response, session, w) := p.handleWith r session (← get)
    set w
    return .closing response session.takePlan.1
  | .closing response plan => do
    match ← (p.keeper.carryOn s plan).run with
    | .error e =>
      let inner ← storeFailed r ("Failed to persist session: " ++ e.message) e.failure
      return .answered (← p.release r inner)
    | .ok (.left plan) => return .closing response plan
    | .ok (.done none) => return .answered (← p.release r response)
    | .ok (.done (some cookie)) =>
      return .answered (← p.release r (response.withHeader "set-cookie" cookie))
  | .answered response => return .answered response
  | .broken crash => return .broken crash

/-- A request after its next step, and the world after it. -/
def fly (p : Portal) (s : Store σ) (f : Flight) (w : World σ) : Flight × World σ :=
  match (p.proceed s f.request f.stage).run.run w with
  | (.ok stage, w) => (⟨f.request, stage⟩, w)
  | (.error c, w) => (⟨f.request, .broken c⟩, w)

/-- The traffic after a move. A number that no request has moves nothing. -/
def move (p : Portal) (s : Store σ) (t : Traffic σ) : Move → Traffic σ
  | .arrive r => { t with flights := t.flights ++ [⟨r, .arrived⟩] }
  | .advance i =>
    match t.flights[i]? with
    | none => t
    | some f => ⟨(p.fly s f t.world).2, t.flights.set i (p.fly s f t.world).1⟩
  | .pause ms => { t with world := { t.world with clock := t.world.clock + ms } }

/-- The traffic after moves, one after the other. -/
def conduct (p : Portal) (s : Store σ) (t : Traffic σ) (ms : List Move) : Traffic σ :=
  ms.foldl (p.move s) t

end Portal

end Intranet
