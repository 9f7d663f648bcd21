import Intranet.Http.Cookie
import Intranet.Session.Handle
import Intranet.Session.Signature
import Intranet.Session.Store
import Intranet.Settings.Basic

/-!
# Keeping sessions

Finds the session of a request by its cookies, or starts one, and carries out the plan of a handle
when the request is done. The cookie of a session is set only after the store has taken everything.
-/

namespace Intranet.Session

/-- How sessions are kept. -/
structure Keeper where
  signer : Signer
  cookieName : String
  /-- Seconds that a session lives after it was last saved. -/
  ttl : Nat
  /-- The identifiers to draw, one after the other. -/
  ids : Nat → Id

/-- The longest time that can be added to a date, in milliseconds. -/
def longestSpan : Nat := Nat.pow 2 63 - 1

/-- The end of a session that starts now. A time that is too long counts as a year. -/
def expiry (now : Nat) (ttl : Nat) : Except Crash Instant :=
  let seconds := if ttl * 1000 ≤ longestSpan then ttl else 365 * 86400
  match (Instant.ofMillis now).addSeconds? seconds with
  | some t => .ok t
  | none => .error ⟨"`DateTime + TimeDelta` overflowed"⟩

namespace Keeper

variable {σ : Type}

/-- The keeper of sessions under given settings. -/
def ofSettings (s : Settings.Sessions) (ids : Nat → Id) : Keeper :=
  ⟨.ofSecret s.secret, s.cookieName, s.cookieTtlSecs.toNat, ids⟩

/-! ## Cookies -/

/-- The identifier of the first cookie of the right name whose signature is right, header by header
and from left to right. -/
def sessionId? (k : Keeper) (headers : List String) : Option Id :=
  (headers.flatMap Http.cookiePairs).findSome? fun (name, value) =>
    if name = k.cookieName.toList then k.signer.verifyL value else none

/-- The longest life of a cookie, in seconds. -/
def longestAge : Nat := Nat.pow 2 63 - 1

/-- The header that sets the cookie of a session. -/
def sessionCookie (k : Keeper) (id : Id) : String :=
  Http.setCookie k.cookieName (k.signer.sign id) (min k.ttl longestAge)

/-- The header that clears the cookie. -/
def clearingCookie (k : Keeper) : String := Http.setCookie k.cookieName "" 0

/-! ## The session of a request -/

/-- Starts a session. The store does not hear of it yet. -/
def start (k : Keeper) : Storing σ Handle := do
  let w ← get
  let expiresAt ← Storing.orCrash (expiry w.clock k.ttl)
  set { w with drawn := w.drawn + 1 }
  pure (.fresh (k.ids w.drawn) expiresAt)

/-- The session that cookies name, or a new one. -/
def resolve (k : Keeper) (s : Store σ) (headers : List String) : Storing σ Handle := do
  match k.sessionId? headers with
  | none => k.start
  | some id =>
    match ← Storing.load s id with
    | some record => pure (.ofRecord record)
    | none =>
      Storing.write .debug ("Session " ++ id.text ++ " expired or unknown")
      k.start

/-- Does in the store what a plan asks for. Gives the cookie header to send, if any. -/
def carryOut (k : Keeper) (s : Store σ) : Plan → Storing σ (Option String)
  | .nothing => pure none
  | .save record replaced => do
    if let some old := replaced then
      Storing.remove s old
    let expiresAt ← Storing.orCrash (expiry (← get).clock k.ttl)
    Storing.save s { record with expiresAt := expiresAt } (k.ttl * 1000)
    pure (some (k.sessionCookie record.id))
  | .remove ids => do
    for id in ids do
      Storing.remove s id
    pure (some k.clearingCookie)

end Keeper

end Intranet.Session
