import Intranet.Proofs.Serving

/-!
# What clients see of a fault

The filter looks at the status of a fault and at nothing else. A denial turns into a redirect, an
error of the server into a page, and of the response that was there before only its cookies remain.

* `filterHttp_denied_eq`, `filterHttp_broken_eq`, `filterHttp_other_eq` — the three things that can
  become of a response with a fault;
* `setCookies_filterHttp` — cookies get past the filter in every case;
* `alike_filterHttp` — two responses whose faults have the same status, a denial or an error of the
  server, cannot be told apart behind the filter but by their cookies;
* `filter_veils` — all of it, for any failure or crash and through the whole pipeline.
-/

namespace Intranet

open Intranet.Http (Request Response Slip)

namespace Http.Response

/-- The headers that set no cookie. -/
def otherHeaders (r : Response) : List (String × String) :=
  r.headers.filter fun (name, _) => name ≠ "set-cookie"

/-- Two responses that clients can tell apart by their cookies at most. -/
structure Alike (a b : Response) : Prop where
  status : a.status = b.status
  headers : a.otherHeaders = b.otherHeaders
  body : a.body = b.body

/-- A response that sets cookies besides. -/
def withCookies (cookies : List String) (r : Response) : Response :=
  { r with headers := r.headers ++ cookies.map fun cookie => ("set-cookie", cookie) }

end Http.Response

/-- The fault of work that stopped. -/
def Stop.fault : Stop → Fault
  | .failed f => f.fault
  | .crashed payload => .crashed payload

/-- A denial, or an error of the server. -/
def Fault.Veiled (f : Fault) : Prop := f.status = 403 ∨ (500 ≤ f.status ∧ f.status < 600)

/-! ## What becomes of a response -/

section Filter

variable {loginPath method path : String} {inner : Response} {l : Ledger} {f : Fault}

theorem fault_ofStop (slip : Slip) (stop : Stop) :
    (Response.ofStop slip stop).fault = some stop.fault := by
  cases stop <;> rfl

theorem filterHttp_of_fault (hf : inner.fault = some f) :
    filterHttp loginPath method path inner l =
      ((f.verdict loginPath (.http method path)).apply inner, f.record (.http method path) l) := by
  simp only [filterHttp, hf]

theorem isServerError_iff {status : Nat} :
    Http.isServerError status = true ↔ 500 ≤ status ∧ status < 600 := by
  simp [Http.isServerError]

/-- A denial redirects to the login page. -/
theorem filterHttp_denied_eq (hlogin : Response.isHeaderValue loginPath = true)
    (hf : inner.fault = some f) (hstatus : f.status = 403) :
    (filterHttp loginPath method path inner l).1 =
      ⟨302, ("location", loginPath) :: inner.setCookies, [], none⟩ := by
  rw [filterHttp_of_fault hf, Fault.verdict, if_pos hstatus]
  simp only [Verdict.apply, Response.redirect, hlogin, if_true, List.singleton_append]

/-- An error of the server shows the page for its status. -/
theorem filterHttp_broken_eq (hf : inner.fault = some f) (hlow : 500 ≤ f.status)
    (hhigh : f.status < 600) :
    (filterHttp loginPath method path inner l).1 =
      ⟨f.status, ("content-type", "text/html; charset=utf-8") :: inner.setCookies,
        Utf8.encode (errorPageText f.status), none⟩ := by
  have hdenied : f.status ≠ 403 := by omega
  have hserver : Http.isServerError f.status = true := isServerError_iff.2 ⟨hlow, hhigh⟩
  rw [filterHttp_of_fault hf, Fault.verdict, if_neg hdenied, if_pos hserver]
  rfl

/-- Any other fault leaves the response as it is. -/
theorem filterHttp_other_eq (hf : inner.fault = some f) (hother : ¬f.Veiled) :
    (filterHttp loginPath method path inner l).1 = inner := by
  obtain ⟨hdenied, hserver⟩ := not_or.1 hother
  rw [filterHttp_of_fault hf, Fault.verdict, if_neg hdenied,
    if_neg fun h => hserver (isServerError_iff.1 h)]
  rfl

end Filter

/-! ## Two responses -/

section Two

variable {loginPath : String} {inner inner' : Response} {f f' : Fault}

/-- A header with the cookies of another response behind it. -/
theorem otherHeaders_inPlaceOf {name : String} (hname : name ≠ "set-cookie") (status : Nat)
    (value : String) (body : List UInt8) (inner : Response) :
    (⟨status, (name, value) :: inner.setCookies, body, none⟩ : Response).otherHeaders =
      [(name, value)] := by
  have hcookies : inner.setCookies.filter (fun (name, _) => name ≠ "set-cookie") = [] := by
    rw [List.filter_eq_nil_iff]
    intro cookie hcookie
    have hname := (List.mem_filter.1 hcookie).2
    simpa using hname
  rw [Response.otherHeaders, List.filter_cons_of_pos (by simpa using hname), hcookies]

/-- **Faults with the same status look the same.** -/
theorem alike_filterHttp (hlogin : Response.isHeaderValue loginPath = true)
    (hf : inner.fault = some f) (hf' : inner'.fault = some f') (hstatus : f.status = f'.status)
    (hveiled : f.Veiled) (method path method' path' : String) (l l' : Ledger) :
    Response.Alike (filterHttp loginPath method path inner l).1
      (filterHttp loginPath method' path' inner' l').1 := by
  rcases hveiled with hdenied | ⟨hlow, hhigh⟩
  · rw [filterHttp_denied_eq hlogin hf hdenied,
      filterHttp_denied_eq hlogin hf' (hstatus.symm.trans hdenied)]
    refine ⟨rfl, ?_, rfl⟩
    rw [otherHeaders_inPlaceOf (by decide), otherHeaders_inPlaceOf (by decide)]
  · rw [filterHttp_broken_eq hf hlow hhigh,
      filterHttp_broken_eq hf' (hstatus ▸ hlow) (hstatus ▸ hhigh), hstatus]
    refine ⟨rfl, ?_, rfl⟩
    rw [otherHeaders_inPlaceOf (by decide), otherHeaders_inPlaceOf (by decide)]

theorem Http.Response.Alike.finish {a b : Response} {r r' : Request} (h : a.Alike b)
    (hmethod : r.method = r'.method) (hpath : r.path = r'.path) :
    (Portal.finish r a).Alike (Portal.finish r' b) := by
  have hallowed : Portal.allowed? r = Portal.allowed? r' := by
    simp only [Portal.allowed?, hmethod, hpath]
  have hnamed (methods : String) :
      (a.withHeader "allow" methods).Alike (b.withHeader "allow" methods) := by
    refine ⟨h.status, ?_, h.body⟩
    have hheaders := h.headers
    simp only [Response.otherHeaders] at hheaders
    simp only [Response.otherHeaders, Response.withHeader, List.filter_append, hheaders]
  have hbody {a b : Response} (h : a.Alike b) :
      Response.Alike (if r'.method = "HEAD" then { a with body := [] } else a)
        (if r'.method = "HEAD" then { b with body := [] } else b) := by
    split
    · exact ⟨h.status, h.headers, rfl⟩
    · exact h
  rw [Portal.finish, Portal.finish, hallowed, hmethod]
  refine hbody ?_
  cases Portal.allowed? r' with
  | none => exact h
  | some methods => exact hnamed methods

end Two

/-! ## What the filter does -/

open Session (Store World)

/-- A request is answered, within the filter, with a response that carries a fault. -/
def Portal.Faults {σ : Type} (p : Portal) (s : Store σ) (r : Request) (w : World σ)
    (f : Fault) : Prop :=
  ∃ inner w₁, (p.withSession s r).exec w = (.ok inner, w₁) ∧ inner.fault = some f

/-- A handler that stops leaves the fault of it for the filter. -/
theorem Portal.faults_of_stop {σ : Type} {p : Portal} {s : Store σ} {r : Request} {w w₁ : World σ}
    {h : Session.Handle} {stop : Stop} (hreg : p.registry = Graphql.portalRegistry)
    (hf : Session.Storing.exec (p.keeper.resolve s r.cookieHeaders) w = (.ok (.ok h), w₁))
    (hstop : (Task.exec (p.handle r) (scene h w₁)).1 = .error stop) :
    p.Faults s r w stop.fault := by
  have hsession : (Task.exec (p.handle r) (scene h w₁)).2.session = h := by
    cases hin : p.signsIn? (scene h w₁).ledger.directoryCalls r with
    | some found =>
      obtain ⟨user, password⟩ := found
      obtain ⟨login, hexec⟩ := handle_signIn hin
      rw [hexec] at hstop
      cases hstop
    | none =>
      by_cases hout : SignsOut r
      · obtain ⟨l, -, hexec⟩ := handle_signOut (p := p) (s := scene h w₁) hout
        rw [hexec] at hstop
        cases hstop
      · exact (handle_other hreg hin hout).1
  have hkept : (p.handleWith r h w₁).2.1.takePlan.1 = .nothing := by
    rw [handleWith_eq]
    show (Task.exec (p.handle r) (scene h w₁)).2.session.takePlan.1 = .nothing
    rw [hsession]
    exact Session.takePlan_of_resolve hf
  have hinner : (p.handleWith r h w₁).1 = .ofStop (slip r w₁) stop := by
    rw [handleWith_eq, hstop]
  refine ⟨.ofStop (slip r w₁) stop, (p.handleWith r h w₁).2.2, ?_, fault_ofStop _ stop⟩
  rw [exec_withSession_found hf, hkept, hinner]
  rfl

/-- What the filter does for a login path. -/
structure Veils (loginPath : String) : Prop where
  /-- A response without a fault is returned as it is. -/
  faultless : ∀ method path inner l, inner.fault = none →
    (filterHttp loginPath method path inner l).1 = inner
  /-- A denial redirects to the login page. Of the response that was there the headers that set
  cookies remain, in order. -/
  denied : ∀ method path inner l f, inner.fault = some f → f.status = 403 →
    (filterHttp loginPath method path inner l).1 =
      ⟨302, ("location", loginPath) :: inner.headers.filter (fun (name, _) => name = "set-cookie"),
        [], none⟩
  /-- An error of the server keeps its status and shows the page for it. Of the response that was
  there the headers that set cookies remain, in order. -/
  broken : ∀ method path inner l f, inner.fault = some f → 500 ≤ f.status → f.status < 600 →
    (filterHttp loginPath method path inner l).1 =
      ⟨f.status, ("content-type", "text/html; charset=utf-8") ::
          inner.headers.filter (fun (name, _) => name = "set-cookie"),
        Utf8.encode (errorPageText f.status), none⟩
  /-- With any other fault the response is returned as it is. -/
  others : ∀ method path inner l f, inner.fault = some f → f.status ≠ 403 →
    ¬(500 ≤ f.status ∧ f.status < 600) → (filterHttp loginPath method path inner l).1 = inner
  /-- Failures and crashes with the same status look the same, whatever cookies are set besides. -/
  stops : ∀ method path l l' slip slip' stop stop' cookies cookies',
    stop.fault.status = stop'.fault.status → stop.fault.Veiled →
    Response.Alike
      (filterHttp loginPath method path ((Response.ofStop slip stop).withCookies cookies) l).1
      (filterHttp loginPath method path ((Response.ofStop slip' stop').withCookies cookies') l').1
  /-- Through the whole pipeline, faults of requests with the same method and path look the same
  when their status is the same, in whatever portals and worlds they come up. -/
  served : ∀ {σ σ' : Type} (p p' : Portal) (s : Store σ) (s' : Store σ') r r' w w' f f',
    p.loginPath = loginPath → p'.loginPath = loginPath → r.method = r'.method → r.path = r'.path →
    p.Faults s r w f → p'.Faults s' r' w' f' → f.status = f'.status → f.Veiled →
    ∃ a b, ((p.serve s r).exec w).1 = .ok a ∧ ((p'.serve s' r').exec w').1 = .ok b ∧ a.Alike b

/-- **The filter veils faults.** What clients see of a denial or an error of the server is settled
by its status: no message, no chain of causes, no payload of a crash and no reference gets
through. -/
theorem filter_veils {loginPath : String} (hlogin : Response.isHeaderValue loginPath = true) :
    Veils loginPath := by
  refine ⟨?_, ?_, ?_, ?_, ?_, ?_⟩
  · intro method path inner l hf
    simp only [filterHttp, hf]
  · intro method path inner l f hf hstatus
    exact filterHttp_denied_eq hlogin hf hstatus
  · intro method path inner l f hf hlow hhigh
    exact filterHttp_broken_eq hf hlow hhigh
  · intro method path inner l f hf hdenied hserver
    exact filterHttp_other_eq hf (not_or.2 ⟨hdenied, hserver⟩)
  · intro method path l l' slip slip' stop stop' cookies cookies' hstatus hveiled
    have hf : ((Response.ofStop slip stop).withCookies cookies).fault = some stop.fault :=
      fault_ofStop slip stop
    have hf' : ((Response.ofStop slip' stop').withCookies cookies').fault = some stop'.fault :=
      fault_ofStop slip' stop'
    exact alike_filterHttp hlogin hf hf' hstatus hveiled method path method path l l'
  · intro σ σ' p p' s s' r r' w w' f f' hp hp' hmethod hpath hfaults hfaults' hstatus hveiled
    obtain ⟨inner, w₁, hexec, hf⟩ := hfaults
    obtain ⟨inner', w₁', hexec', hf'⟩ := hfaults'
    have halike := alike_filterHttp hlogin hf hf' hstatus hveiled r.method r.path r'.method r'.path
      w₁.ledger w₁'.ledger
    rw [Portal.exec_serve, Portal.exec_serve, hexec, hexec', hp, hp']
    exact ⟨_, _, rfl, rfl, halike.finish hmethod hpath⟩

/-- The rehearsal portal with a directory that stops whenever it is asked. -/
def stoppingPortal (stop : Stop) : Portal :=
  { Rehearsal.portal with
    collaborators := { Rehearsal.portal.collaborators with
      directory := Rehearsal.directory [{ Rehearsal.staff with fails := some stop }] } }

/-- The page that is shown for the status 500. -/
def internalErrorPage : String :=
  "<!DOCTYPE html>\n<html lang=\"en\">\n<head><meta charset=\"utf-8\">" ++
    "<title>500 Internal Server Error</title></head>\n<body>\n<h1>500</h1>\n" ++
    "<p>Internal Server Error</p>\n" ++
    "<p>Something went wrong on our side. Please try again later.</p>\n" ++
    "<p><a href=\"/\">Back to the portal</a></p>\n</body>\n</html>\n"

/-- The login path of the rehearsal portal can be sent. Someone signs in while the directory
crashes, and someone else while it fails for a reason of its own: what they are shown is the
same. -/
theorem filter_veils_rehearsal :
    Response.isHeaderValue Rehearsal.portal.loginPath = true ∧ Veils Rehearsal.portal.loginPath ∧
      ∃ a b,
        (((stoppingPortal (.crashed "index out of bounds")).serve Session.Memory.store
          Rehearsal.signIn).exec (World.start .empty 0)).1 = .ok a ∧
        (((stoppingPortal (.failed (.internal ⟨"connection lost", ["host db1 down"]⟩))).serve
          Session.Memory.store Rehearsal.signIn).exec (World.start .empty 0)).1 = .ok b ∧
        a.Alike b ∧ a.body = Utf8.encode internalErrorPage := by
  have hlogin : Response.isHeaderValue Rehearsal.portal.loginPath = true := by decide
  have hveils := filter_veils hlogin
  let crash : Stop := .crashed "index out of bounds"
  let failure : Stop := .failed (.internal ⟨"connection lost", ["host db1 down"]⟩)
  have hid : Rehearsal.portal.keeper.sessionId? Rehearsal.signIn.cookieHeaders = none := rfl
  have hfound := Portal.resolve_stranger hid
  have hcrash : (stoppingPortal crash).Faults Session.Memory.store Rehearsal.signIn
      (World.start .empty 0) crash.fault :=
    Portal.faults_of_stop rfl hfound (by decide +kernel)
  have hfailure : (stoppingPortal failure).Faults Session.Memory.store Rehearsal.signIn
      (World.start .empty 0) failure.fault :=
    Portal.faults_of_stop rfl hfound (by decide +kernel)
  obtain ⟨a, b, ha, hb, halike⟩ := hveils.served (stoppingPortal crash) (stoppingPortal failure)
    Session.Memory.store Session.Memory.store Rehearsal.signIn Rehearsal.signIn _ _ _ _ rfl rfl rfl
    rfl hcrash hfailure rfl (.inr (by decide))
  refine ⟨hlogin, hveils, a, b, ha, hb, halike, ?_⟩
  have hbody : ((((stoppingPortal crash).serve Session.Memory.store Rehearsal.signIn).exec
      (World.start .empty 0)).1.toOption.map Response.body) =
        some (Utf8.encode internalErrorPage) := by decide +kernel
  rw [ha] at hbody
  exact Option.some.inj hbody

end Intranet
