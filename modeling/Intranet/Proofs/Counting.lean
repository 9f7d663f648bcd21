import Intranet.Proofs.Authentication
import Intranet.Proofs.Authority
import Intranet.Proofs.Books
import Intranet.Proofs.Envelope
import Intranet.Proofs.Filter

/-!
# The counters account for what happened

What the counters say after a run, against what happened in it: the calls that were made, and for
each request whether a guard denied, the document gateway refused, a root field became an error,
and which faults reached the filter.

* `denies`, `refuses`, `answer?`, `fieldFault?` — what can happen to a request with a session;
* `books_handle` — handling a request adds just that to the books;
* `books_serve` — so does serving it, with the fault of the response besides;
* `counters_account` — the counters after any run.
-/

namespace Intranet

open Intranet.Task (exec exec_bind)

namespace Portal

open Http (Request Response)
open Session (Store World Storing Handle)

/-! ## What can happen to a request -/

/-- The body, the root field and its registration, of a request that posts a document. -/
def askedField? (p : Portal) (r : Request) :
    Option (Graphql.Asked × Graphql.RootField × Graphql.Field) :=
  if r.path = "/graphql" ∧ r.method = "POST" then
    match r.json Graphql.Asked.decoder with
    | .error _ => none
    | .ok asked =>
      match Graphql.parse asked.query (asked.given.getD []) with
      | .error _ => none
      | .ok root =>
        (p.registry.lookup root.operation root.name).map fun field => (asked, root, field)
  else none

/-- The path that a request over the file routes asks the document gateway about. -/
def restPath? (r : Request) : Option String :=
  match Route.ofPath? r.path with
  | none => none
  | some route =>
    if r.method ∉ route.methods then none
    else
      match route with
      | .files =>
        if r.method = "PUT" then
          match queryPath r, r.bytes with
          | .ok path, .ok _ => some path
          | _, _ => none
        else (queryPath r).toOption
      | .fileContent | .fileUrl => (queryPath r).toOption
      | _ => none

/-- The path that a request asks the document gateway about, on either surface. -/
def filePath? (p : Portal) (r : Request) : Option String :=
  match p.askedField? r with
  | some (_, root, _) =>
    if (root.operation, root.name) ∈ Graphql.fileFields then
      some (Graphql.Query.path ⟨none, root.arguments⟩)
    else none
  | none => restPath? r

/-- A guard denies the request with the session: that of its route or that of its root field. -/
def denies (p : Portal) (r : Request) (h : Handle) : Bool :=
  (Route.ofPath? r.path).any (fun route => route.guard.denies h) ||
    (p.askedField? r).any fun asked => asked.2.2.guard.denies h

/-- The guards let the request pass, and the document gateway refuses it. -/
def refuses (p : Portal) (r : Request) (h : Handle) : Bool :=
  !p.denies r h && (p.filePath? r).any fun path =>
    (Documents.credential? ⟨h.principal, h.credential⟩ path).isNone

/-- What a posted document is answered with. -/
def answer? (p : Portal) (r : Request) (s : Scene) : Option Json :=
  if r.path = "/graphql" ∧ r.method = "POST" then
    match r.json Graphql.Asked.decoder with
    | .error _ => none
    | .ok asked => (exec (Graphql.execute p.collaborators p.registry asked) s).1.toOption
  else none

/-- The failure of the root field or of its guard, as the filter sees it. -/
def fieldFault? (p : Portal) (r : Request) (s : Scene) : Option Fault :=
  match p.askedField? r with
  | none => none
  | some (asked, root, field) =>
    match (exec (Graphql.runField p.collaborators field root) (Graphql.opened asked root s)).1 with
    | .error (.failed f) => some f.fault
    | _ => none

/-- What handling a request adds to the books. -/
def billed (p : Portal) (r : Request) (s : Scene) : Growth :=
  ⟨(p.denies r s.session).toNat, (p.refuses r s.session).toNat,
    ((p.answer? r s).any Graphql.namesField).toNat, ((p.fieldFault? r s).map Fault.weight).getD 0⟩

/-! ## Handling a request -/

section Handling

variable {p : Portal} {r : Request} {s : Scene} {d : Directory} {h : Handle}

/-- What the gateway adds for a request with the session `h`, if it is asked. -/
def refusalAt (h : Handle) (path : Option String) : Growth :=
  path.elim .none (refusal ⟨h.principal, h.credential⟩)

/-- What a guard adds that denies, or else the gateway behind it. -/
def guardedGrowth (denied : Bool) (h : Handle) (path : Option String) : Growth :=
  ⟨denied.toNat, (!denied && path.any fun path =>
    (Documents.credential? ⟨h.principal, h.credential⟩ path).isNone).toNat, 0, 0⟩

theorem guardedGrowth_denied (h : Handle) (path : Option String) :
    guardedGrowth true h path = ⟨1, 0, 0, 0⟩ := rfl

theorem guardedGrowth_passed (h : Handle) (path : Option String) :
    guardedGrowth false h path = refusalAt h path := by
  cases path with
  | none => rfl
  | some path =>
    show (⟨0, (Documents.credential? _ path).isNone.toNat, 0, 0⟩ : Growth) = refusal _ path
    rw [refusal]
    cases Documents.credential? ⟨h.principal, h.credential⟩ path <;> rfl

theorem bills_portal_perform (path : String) (request : Documents.Request) :
    Bills d h (p.perform path request) (refusal ⟨h.principal, h.credential⟩ path) :=
  bills_caller_bind (bills_onLedger fun l => books_perform _ _ _ request l)

theorem bills_listFolder : Bills d h (p.listFolder r) (refusalAt h (queryPath r).toOption) := by
  rw [listFolder]
  cases queryPath r with
  | error refused => exact bills_pure _
  | ok path => exact bills_bind_idle (bills_portal_perform path _) fun _ => bills_pure _

theorem bills_getFile : Bills d h (p.getFile r) (refusalAt h (queryPath r).toOption) := by
  rw [getFile]
  cases queryPath r with
  | error refused => exact bills_pure _
  | ok path => exact bills_bind_idle (bills_portal_perform path _) fun _ => bills_pure _

theorem bills_fileUrl : Bills d h (p.fileUrl r) (refusalAt h (queryPath r).toOption) := by
  rw [fileUrl]
  cases queryPath r with
  | error refused => exact bills_pure _
  | ok path => exact bills_bind_idle (bills_portal_perform path _) fun _ => bills_pure _

theorem bills_putFile :
    Bills d h (p.putFile r) (refusalAt h (match queryPath r, r.bytes with
      | .ok path, .ok _ => some path
      | _, _ => none)) := by
  rw [putFile]
  cases queryPath r with
  | error refused => exact bills_pure _
  | ok path =>
    dsimp only
    cases r.bytes with
    | error refused => exact bills_pure _
    | ok content => exact bills_bind_idle (bills_portal_perform path _) fun _ => bills_pure _

theorem bills_profile : Bills p.collaborators.directory h p.profile .none := by
  refine bills_session_bind (bills_bind_idle (bills_check _) fun user => ?_)
  refine bills_bind_idle (bills_onLedger fun l => ?_)
    fun _ => bills_bind_idle (bills_check _) fun _ => bills_pure _
  exact books_profile user.login l

theorem bills_sync : Bills d h p.sync .none := by
  refine bills_session_bind (bills_bind_idle (bills_check _) fun user => ?_)
  exact bills_bind_idle (bills_onLedger fun l => books_sync user.login l) fun _ => bills_pure _

/-- Signing in adds nothing but the verdict of the directory. -/
theorem books_login (s : Scene) :
    Books p.collaborators.directory .none s.ledger (exec (p.login r) s).2.ledger := by
  rw [login]
  cases r.json Credentials.decoder with
  | error rejection => exact books_refl _
  | ok c =>
    cases hl : checkRequired c.login "login" with
    | error f =>
      simp only [signIn, hl, exec_bind, Task.exec_check_error]
      exact books_refl _
    | ok u =>
      cases hp : checkRequired c.password "password" with
      | error f =>
        simp only [signIn, hl, hp, exec_bind, Task.exec_check_ok, Task.exec_check_error]
        exact books_refl _
      | ok u =>
        have hverdict := books_authenticate (d := p.collaborators.directory) (Text.trim c.login)
          c.password s.ledger
        simp only [signIn, hl, hp, exec_bind, Task.exec_check_ok, Handling.exec_onLedger,
          exec_ask_authenticate]
        cases hd : p.collaborators.directory s.ledger.directoryCalls
            (.authenticate (Text.trim c.login) c.password) with
        | error stop =>
          rw [hd] at hverdict
          exact hverdict
        | ok found =>
          rw [hd] at hverdict
          cases found with
          | none => exact hverdict.idle (books_write _ _ _)
          | some user => exact hverdict.idle (books_write _ _ _)

theorem books_logout (s : Scene) : Books d .none s.ledger (exec logout s).2.ledger := by
  cases hp : s.session.principal with
  | none =>
    simp only [logout, exec_bind, Handling.exec_session, hp, Task.exec_pure,
      Handling.exec_changeSession]
    exact books_refl _
  | some user =>
    simp only [logout, exec_bind, Handling.exec_session, hp, Task.exec_pure,
      Handling.exec_onLedger, Task.exec_write, Handling.exec_changeSession]
    exact books_write _ _ _

/-- What a handler adds to the books, apart from those of documents: a refusal of the gateway at
most. -/
theorem books_handler {route : Route} {t : Handling Response}
    (hroute : Route.ofPath? r.path = some route) (ht : p.handler? r route = some t)
    (hother : route ≠ .graphql) (s : Scene) :
    Books p.collaborators.directory (refusalAt s.session (restPath? r)) s.ledger
      (exec t s).2.ledger := by
  unfold handler? at ht
  split at ht
  · cases ht
  · next hmethod =>
    simp only [restPath?, hroute, if_neg hmethod]
    cases ht
    cases route with
    | health => exact books_refl _
    | ready =>
      show Books _ .none s.ledger (exec p.ready s).2.ledger
      rw [ready]
      split
      · exact books_refl _
      · exact books_write _ _ _
      · exact books_refl _
    | version => exact books_refl _
    | metrics => exact books_refl _
    | exposition => exact books_refl _
    | login =>
      dsimp only
      split
      · exact books_login s
      · exact books_refl _
    | logout => exact books_logout s
    | graphql => exact absurd rfl hother
    | me =>
      exact (bills_session_bind (bills_bind_idle (bills_check _) fun _ => bills_pure _) s rfl).2
    | profile => exact (bills_profile s rfl).2
    | files =>
      dsimp only
      split
      · exact (bills_putFile s rfl).2
      · exact (bills_listFolder s rfl).2
    | fileContent => exact (bills_getFile s rfl).2
    | fileUrl => exact (bills_fileUrl s rfl).2
    | sync => exact (bills_sync s rfl).2

/-- A guard either lets a session pass or denies it. -/
theorem denies_of_error {guard : Session.Guard} {denial : Failure}
    (hg : guard.check (some h) = .error denial) : guard.denies h = true := by
  rw [Session.Guard.denies, hg]
  rfl

theorem denies_of_ok {guard : Session.Guard} {who : Option Principal}
    (hg : guard.check (some h) = .ok who) : guard.denies h = false := by
  rw [Session.Guard.denies, hg]
  rfl

/-- What it takes for a request to ask for a root field. -/
theorem askedField?_eq_some {asked : Graphql.Asked} {root : Graphql.RootField}
    {field : Graphql.Field} (hasked : p.askedField? r = some (asked, root, field)) :
    r.path = "/graphql" ∧ r.method = "POST" ∧ r.json Graphql.Asked.decoder = .ok asked ∧
      Graphql.parse asked.query (asked.given.getD []) = .ok root ∧
      p.registry.lookup root.operation root.name = some field := by
  unfold askedField? at hasked
  split at hasked
  · next hg =>
    refine ⟨hg.1, hg.2, ?_⟩
    split at hasked
    · cases hasked
    · next asked' hjson =>
      split at hasked
      · cases hasked
      · next root' hparse =>
        obtain ⟨field', hlookup, heq⟩ := Option.map_eq_some_iff.1 hasked
        cases heq
        exact ⟨hjson, hparse, hlookup⟩
  · cases hasked

/-- What is billed to a request that posts no document. -/
theorem billed_of_not_graphql (hg : ¬(r.path = "/graphql" ∧ r.method = "POST")) (s : Scene) :
    p.billed r s = guardedGrowth
      ((Route.ofPath? r.path).any fun route => route.guard.denies s.session) s.session
      (restPath? r) := by
  have hasked : p.askedField? r = none := by
    rw [askedField?, if_neg hg]
  have hanswer : p.answer? r s = none := by
    rw [answer?, if_neg hg]
  simp [billed, guardedGrowth, refuses, denies, filePath?, fieldFault?, hasked, hanswer]

/-- Without a handler the gateway is not asked. -/
theorem restPath?_of_unhandled {route : Route} (hroute : Route.ofPath? r.path = some route)
    (ht : p.handler? r route = none) : restPath? r = none := by
  have hmethod : r.method ∉ route.methods := by
    by_contra hmethod
    simp [handler?, hmethod] at ht
  simp only [restPath?, hroute, if_pos hmethod]

/-- **A request over a route.** Its guard denies it, or its handler adds a refusal of the gateway
at most. -/
theorem books_handle_route (hg : ¬(r.path = "/graphql" ∧ r.method = "POST")) (s : Scene) :
    Books p.collaborators.directory (p.billed r s) s.ledger (exec (p.handle r) s).2.ledger := by
  rw [billed_of_not_graphql hg]
  cases hroute : Route.ofPath? r.path with
  | none =>
    have hrest : restPath? r = none := by
      rw [restPath?, hroute]
    simp only [handle, hroute, hrest]
    exact books_refl _
  | some route =>
    rw [Option.any_some]
    cases hguard : route.guard.check (some s.session) with
    | error denial =>
      rw [exec_handle_denied s hroute hguard, denies_of_error hguard, guardedGrowth_denied]
      exact (books_denied _).idle (books_write _ _ _)
    | ok who =>
      rw [exec_handle_passed hroute hguard, denies_of_ok hguard, guardedGrowth_passed]
      cases ht : p.handler? r route with
      | none =>
        rw [restPath?_of_unhandled hroute ht]
        exact books_refl _
      | some t =>
        refine books_handler hroute ht ?_ s
        rintro rfl
        refine hg ⟨eq_of_ofPath?_graphql hroute, ?_⟩
        by_contra hmethod
        simp [handler?, Route.methods, hmethod] at ht

/-- The path that a root field asks the document gateway about. -/
def fieldPath? (root : Graphql.RootField) : Option String :=
  if (root.operation, root.name) ∈ Graphql.fileFields then
    some (Graphql.Query.path ⟨none, root.arguments⟩)
  else none

/-- **A root field.** Its guard denies it, or its resolver adds a refusal of the gateway at
most. -/
theorem books_runField {root : Graphql.RootField} {field : Graphql.Field} {c : Collaborators}
    (hlookup : Graphql.portalRegistry.lookup root.operation root.name = some field) (s : Scene) :
    Books d (guardedGrowth (field.guard.denies s.session) s.session (fieldPath? root)) s.ledger
      (exec (Graphql.runField c field root) s).2.ledger := by
  rw [Graphql.exec_runField]
  cases hguard : field.guard.check (some s.session) with
  | error denial =>
    rw [denies_of_error hguard, guardedGrowth_denied]
    exact books_denied _
  | ok who =>
    rw [denies_of_ok hguard, guardedGrowth_passed, fieldPath?]
    have hresolved := (Graphql.bills_resolve (d := d) (c := c) who hlookup s rfl).2
    by_cases hfile : (root.operation, root.name) ∈ Graphql.fileFields
    · rw [if_pos hfile] at hresolved ⊢
      exact hresolved
    · rw [if_neg hfile] at hresolved ⊢
      exact hresolved

/-- What becomes of a failure in a root field. -/
def settled (x : Except Stop Json) : Growth :=
  match x with
  | .error (.failed f) => ⟨0, 0, 1, f.fault.weight⟩
  | _ => .none

/-- Settling a failure adds one error and its fault. -/
theorem books_settle (root : Graphql.RootField) {run : Handling Json} {g : Growth} {s : Scene}
    (hrun : Books d g s.ledger (exec run s).2.ledger) :
    Books d (g + settled (exec run s).1) s.ledger
      (exec (Graphql.settle root run) s).2.ledger := by
  rw [Graphql.exec_settle]
  revert hrun
  cases exec run s with
  | mk x left =>
    intro hrun
    cases x with
    | ok value => exact hrun
    | error stop =>
      cases stop with
      | crashed payload => exact hrun
      | failed f => exact hrun.trans (books_record_graphql f.fault _ _ left.ledger)

/-- Nothing is billed to a posted document that asks for no registered field and is answered with
an error of the whole request, if at all. -/
theorem billed_of_none (hpath : r.path = "/graphql") (hmethod : r.method = "POST")
    (hasked : p.askedField? r = none)
    (hanswer : (p.answer? r s).any Graphql.namesField = false) : p.billed r s = .none := by
  have hroute : Route.ofPath? r.path = some .graphql := by rw [hpath]; exact ofPath?_graphql
  have hrest : restPath? r = none := by
    simp [restPath?, hroute, Route.methods, hmethod]
  have hdenies : p.denies r s.session = false := by
    rw [denies, hroute, hasked]
    rfl
  have hrefuses : p.refuses r s.session = false := by
    rw [refuses, filePath?, hasked, hrest, hdenies]
    rfl
  have hfault : p.fieldFault? r s = none := by
    rw [fieldFault?, hasked]
  rw [billed, hdenies, hrefuses, hanswer, hfault]
  rfl

/-- What is billed to a posted document that asks for a registered field. -/
theorem billed_of_some {asked : Graphql.Asked} {root : Graphql.RootField} {field : Graphql.Field}
    (hpath : r.path = "/graphql") (hasked : p.askedField? r = some (asked, root, field)) :
    p.billed r s = guardedGrowth (field.guard.denies s.session) s.session (fieldPath? root) +
      ⟨0, 0, ((p.answer? r s).any Graphql.namesField).toNat,
        ((p.fieldFault? r s).map Fault.weight).getD 0⟩ := by
  have hroute : Route.ofPath? r.path = some .graphql := by rw [hpath]; exact ofPath?_graphql
  have hdenies : p.denies r s.session = field.guard.denies s.session := by
    rw [denies, hroute, hasked]
    rfl
  have hfile : p.filePath? r = fieldPath? root := by
    rw [filePath?, hasked]
    rfl
  show _ = Growth.add _ _
  simp [billed, guardedGrowth, refuses, hdenies, hfile, Growth.add]

/-- What becomes of a root field is its error in the answer, and its fault. -/
theorem settled_eq {asked : Graphql.Asked} {root : Graphql.RootField} {field : Graphql.Field}
    (hpath : r.path = "/graphql") (hmethod : r.method = "POST")
    (hjson : r.json Graphql.Asked.decoder = .ok asked)
    (hparse : Graphql.parse asked.query (asked.given.getD []) = .ok root)
    (hlookup : p.registry.lookup root.operation root.name = some field) :
    settled (exec (Graphql.runField p.collaborators field root) (Graphql.opened asked root s)).1 =
      ⟨0, 0, ((p.answer? r s).any Graphql.namesField).toNat,
        ((p.fieldFault? r s).map Fault.weight).getD 0⟩ := by
  have hasked : p.askedField? r = some (asked, root, field) := by
    simp [askedField?, hpath, hmethod, hjson, hparse, hlookup]
  have hanswer : p.answer? r s = (exec (Graphql.settle root
      (Graphql.runField p.collaborators field root))
        (Graphql.opened asked root s)).1.toOption := by
    simp only [answer?, hpath, hmethod, hjson, and_self, if_true,
      Graphql.exec_execute_field hparse hlookup]
  rw [hanswer, Graphql.exec_settle, fieldFault?, hasked]
  dsimp only
  cases exec (Graphql.runField p.collaborators field root) (Graphql.opened asked root s) with
  | mk x left =>
    cases x with
    | ok value =>
      simp only [Except.toOption, Option.any_some, Graphql.namesField_dataBody]
      rfl
    | error stop =>
      cases stop with
      | crashed payload => rfl
      | failed f =>
        simp only [Except.toOption, Option.any_some, Graphql.namesField_errorBody]
        rfl

/-- **A posted document.** Nothing is counted for one that cannot be read or asks for a field that
is not registered. Otherwise the guard denies it, or the gateway refuses it or not, and a failure
of the field is counted. -/
theorem books_handle_graphql (hreg : p.registry = Graphql.portalRegistry)
    (hpath : r.path = "/graphql") (hmethod : r.method = "POST") (s : Scene) :
    Books p.collaborators.directory (p.billed r s) s.ledger (exec (p.handle r) s).2.ledger := by
  cases hjson : r.json Graphql.Asked.decoder with
  | error rejection =>
    have hexec : (exec (p.handle r) s).2 = s := by
      rw [exec_handle_posted hpath hmethod]
      simp only [Graphql.respond, hjson, Task.exec_pure]
    rw [hexec, billed_of_none hpath hmethod (by simp [askedField?, hjson])
      (by simp [answer?, hjson])]
    exact books_refl _
  | ok asked =>
    have hledger : (exec (p.handle r) s).2.ledger =
        (exec (Graphql.execute p.collaborators p.registry asked) s).2.ledger := by
      rw [exec_handle_graphql hpath hmethod hjson]
      cases exec (Graphql.execute p.collaborators p.registry asked) s with
      | mk x left => cases x <;> rfl
    have hanswer : p.answer? r s =
        (exec (Graphql.execute p.collaborators p.registry asked) s).1.toOption := by
      simp only [answer?, hpath, hmethod, hjson, and_self, if_true]
    rw [hledger]
    cases hparse : Graphql.parse asked.query (asked.given.getD []) with
    | error e =>
      rw [Graphql.exec_execute_unread hparse, Graphql.exec_reject] at hanswer ⊢
      rw [billed_of_none hpath hmethod (by simp [askedField?, hjson, hparse])
        (by rw [hanswer, Except.toOption, Option.any_some, Graphql.namesField_errorBody]; rfl)]
      exact books_write _ _ _
    | ok root =>
      cases hlookup : p.registry.lookup root.operation root.name with
      | none =>
        rw [Graphql.exec_execute_unknown hparse hlookup, Graphql.exec_reject] at hanswer ⊢
        rw [billed_of_none hpath hmethod (by simp [askedField?, hjson, hparse, hlookup])
          (by rw [hanswer, Except.toOption, Option.any_some, Graphql.namesField_errorBody]; rfl)]
        exact (books_write _ _ _).idle (books_write _ _ _)
      | some field =>
        have hasked : p.askedField? r = some (asked, root, field) := by
          simp [askedField?, hpath, hmethod, hjson, hparse, hlookup]
        have hsettled := settled_eq (s := s) hpath hmethod hjson hparse hlookup
        have hopened : Books p.collaborators.directory .none s.ledger
            (Graphql.opened asked root s).ledger := books_write _ _ _
        rw [Graphql.exec_execute_field hparse hlookup, billed_of_some hpath hasked, ← hsettled]
        rw [hreg] at hlookup
        have hrun := books_runField (d := p.collaborators.directory) (c := p.collaborators) hlookup
          (Graphql.opened asked root s)
        have hall := hopened.trans (books_settle root hrun)
        rw [Growth.none_add] at hall
        exact hall

/-! ## What a refusal is answered with -/

/-- The failure of a refusal. -/
def notAuthorized : Stop := .failed (.unauthorized Documents.notAuthorized)

theorem exec_perform_refused {path : String}
    (hc : Documents.credential? ⟨s.session.principal, s.session.credential⟩ path = none)
    (request : Documents.Request) :
    ∃ l, exec (p.perform path request) s = (.error notAuthorized, Handling.withLedger s l) := by
  refine ⟨Documents.refused request.name path s.ledger, ?_⟩
  rw [perform, exec_bind, Handling.exec_caller]
  dsimp only
  rw [Handling.exec_onLedger, Documents.exec_perform, hc]
  rfl

/-- A request over a file route that the gateway refuses fails. -/
theorem handler_refused {route : Route} {t : Handling Response} {path : String}
    (hroute : Route.ofPath? r.path = some route) (ht : p.handler? r route = some t)
    (hpath : restPath? r = some path)
    (hc : Documents.credential? ⟨s.session.principal, s.session.credential⟩ path = none) :
    ∃ l, exec t s = (.error notAuthorized, Handling.withLedger s l) := by
  unfold handler? at ht
  split at ht
  · cases ht
  · next hmethod =>
    simp only [restPath?, hroute, if_neg hmethod] at hpath
    cases ht
    have hquery : (queryPath r).toOption = some path → queryPath r = .ok path := by
      cases queryPath r with
      | error refused => intro h; cases h
      | ok found => intro h; cases h; rfl
    cases route with
    | files =>
      dsimp only at hpath ⊢
      by_cases hput : r.method = "PUT"
      · rw [if_pos hput] at hpath ⊢
        split at hpath
        · next found content hq hb =>
          cases hpath
          obtain ⟨l, hl⟩ := exec_perform_refused (p := p) hc (.putFile content)
          refine ⟨l, ?_⟩
          simp only [putFile, hq, hb]
          exact Task.exec_bind_error hl _
        · cases hpath
      · rw [if_neg hput] at hpath ⊢
        obtain ⟨l, hl⟩ := exec_perform_refused (p := p) hc .listFolder
        refine ⟨l, ?_⟩
        simp only [listFolder, hquery hpath]
        exact Task.exec_bind_error hl _
    | fileContent =>
      obtain ⟨l, hl⟩ := exec_perform_refused (p := p) hc .getFile
      refine ⟨l, ?_⟩
      simp only [getFile, hquery hpath]
      exact Task.exec_bind_error hl _
    | fileUrl =>
      obtain ⟨l, hl⟩ := exec_perform_refused (p := p) hc .fileUrl
      refine ⟨l, ?_⟩
      simp only [fileUrl, hquery hpath]
      exact Task.exec_bind_error hl _
    | health | ready | version | metrics | exposition | login | logout | graphql | me | profile
    | sync => cases hpath

/-- A root field that the gateway refuses fails in the same way. -/
theorem field_refused {root : Graphql.RootField} {field : Graphql.Field} (who : Option Principal)
    (hlookup : Graphql.portalRegistry.lookup root.operation root.name = some field)
    (hfile : (root.operation, root.name) ∈ Graphql.fileFields)
    (hc : Documents.credential? ⟨s.session.principal, s.session.credential⟩
      (Graphql.Query.path ⟨none, root.arguments⟩) = none) :
    (exec (field.resolve p.collaborators ⟨who, root.arguments⟩) s).1 = .error notAuthorized := by
  have hmem : field ∈ Graphql.portalFields := by
    rw [← fields_portalRegistry]
    exact List.mem_of_find?_eq_some hlookup
  have hnames := List.find?_some hlookup
  simp only [Bool.and_eq_true, decide_eq_true_eq] at hnames
  rw [← hnames.1, ← hnames.2] at hfile
  have hperform : ∀ (request : Documents.Request) (render : request.Reply → Json),
      (exec (do
        let caller ← Handling.caller
        let reply ← Handling.onLedger (Documents.perform p.collaborators.documents caller
          (Graphql.Query.path ⟨who, root.arguments⟩) request)
        return render reply) s).1 = .error notAuthorized := by
    intro request render
    obtain ⟨l, hl⟩ := exec_perform_refused (p := p) hc request
    rw [perform, exec_bind, Handling.exec_caller] at hl
    rw [exec_bind, Handling.exec_caller]
    exact congrArg Prod.fst (Task.exec_bind_error hl _)
  simp only [Graphql.portalFields, List.mem_cons, List.not_mem_nil, or_false] at hmem
  rcases hmem with rfl | rfl | rfl | rfl | rfl
  · exact absurd hfile (by decide)
  · exact hperform .listFolder fun entries => (Json.arr (entries.map Documents.Entry.json)).sorted
  · exact hperform .getFile fun content => .str (Base64.encode content)
  · exact hperform .fileUrl fun url => .str url
  · -- the early look at the credential ends the resolver
    have hnone : Documents.credential? ⟨s.session.principal, s.session.credential⟩
        (Graphql.Query.path ⟨who, root.arguments⟩) = none := hc
    have hearly : exec (discard (Handling.onLedger (Documents.requireCredential "put_file"
        ⟨s.session.principal, s.session.credential⟩
          (Graphql.Query.path ⟨who, root.arguments⟩)))) s =
        (.error notAuthorized, Handling.withLedger s (Documents.refused "put_file"
          (Graphql.Query.path ⟨who, root.arguments⟩) s.ledger)) := by
      refine Task.exec_bind_error ?_ _
      rw [Handling.exec_onLedger, Documents.exec_requireCredential_none hnone]
      rfl
    show (exec (Graphql.putFile p.collaborators _) s).1 = _
    rw [Graphql.putFile, exec_bind, Handling.exec_caller]
    exact congrArg Prod.fst (Task.exec_bind_error hearly _)

/-- A request that the gateway refuses fails with the session left alone, or its root field
does. -/
theorem handle_refused (hreg : p.registry = Graphql.portalRegistry)
    (hrefused : p.refuses r s.session = true) :
    p.fieldFault? r s = some (Failure.unauthorized Documents.notAuthorized).fault ∨
      ∃ l, exec (p.handle r) s = (.error notAuthorized, Handling.withLedger s l) := by
  rw [refuses, Bool.and_eq_true, Bool.not_eq_true', Option.any_eq_true] at hrefused
  obtain ⟨hpassed, path, hpath, hc⟩ := hrefused
  rw [Option.isNone_iff_eq_none] at hc
  rw [denies, Bool.or_eq_false_iff] at hpassed
  cases hasked : p.askedField? r with
  | none =>
    right
    rw [filePath?, hasked] at hpath
    cases hroute : Route.ofPath? r.path with
    | none =>
      rw [restPath?, hroute] at hpath
      cases hpath
    | some route =>
      cases hguard : route.guard.check (some s.session) with
      | error denial =>
        rw [hroute, Option.any_some, denies_of_error hguard] at hpassed
        cases hpassed.1
      | ok who =>
        rw [exec_handle_passed hroute hguard]
        cases ht : p.handler? r route with
        | none =>
          rw [restPath?_of_unhandled hroute ht] at hpath
          cases hpath
        | some t => exact handler_refused hroute ht hpath hc
  | some found =>
    left
    obtain ⟨asked, root, field⟩ := found
    obtain ⟨-, -, -, -, hlookup⟩ := askedField?_eq_some hasked
    rw [filePath?, hasked] at hpath
    dsimp only at hpath
    split at hpath
    · next hfile =>
      cases hpath
      rw [hasked] at hpassed
      simp only [Option.any_some] at hpassed
      rw [fieldFault?, hasked]
      dsimp only
      rw [Graphql.exec_runField]
      cases hguard : field.guard.check (some (Graphql.opened asked root s).session) with
      | error denial =>
        have hdenied : field.guard.denies s.session = true := denies_of_error hguard
        rw [hdenied] at hpassed
        cases hpassed.2
      | ok who =>
        rw [hreg] at hlookup
        have hstop :=
          field_refused (p := p) (s := Graphql.opened asked root s) who hlookup hfile hc
        dsimp only
        rw [hstop]
        rfl
    · cases hpath

/-! ## Every request -/

/-- **What handling a request adds to the books**, whatever the request and its session are. -/
theorem books_handle (hreg : p.registry = Graphql.portalRegistry) (r : Request) (s : Scene) :
    Books p.collaborators.directory (p.billed r s) s.ledger (exec (p.handle r) s).2.ledger := by
  by_cases hg : r.path = "/graphql" ∧ r.method = "POST"
  · exact books_handle_graphql hreg hg.1 hg.2 s
  · exact books_handle_route hg s

end Handling

/-! ## Serving a request -/

section Serving

variable {σ : Type} {p : Portal} {s : Store σ} {r : Request} {w w₁ : World σ} {h : Handle}

/-- The scene on which a request is handled, once its session has been found or started. -/
def scene? (p : Portal) (s : Store σ) (r : Request) (w : World σ) : Option Scene :=
  match Storing.exec (p.keeper.resolve s r.cookieHeaders) w with
  | (.ok (.ok h), w₁) => some (scene h w₁)
  | _ => none

/-- The fault of a response before it comes to the filter. -/
def responseFault? (p : Portal) (s : Store σ) (r : Request) (w : World σ) : Option Fault :=
  match ((p.withSession s r).exec w).1 with
  | .ok inner => inner.fault
  | .error _ => none

/-- A guard denies a request in a world. -/
def isDenied (p : Portal) (s : Store σ) (r : Request) (w : World σ) : Bool :=
  (p.scene? s r w).any fun scene => p.denies r scene.session

/-- The document gateway refuses a request in a world. -/
def isRefused (p : Portal) (s : Store σ) (r : Request) (w : World σ) : Bool :=
  (p.scene? s r w).any fun scene => p.refuses r scene.session

/-- The answer to a document has an error that names its field. -/
def isFieldError (p : Portal) (s : Store σ) (r : Request) (w : World σ) : Bool :=
  ((p.scene? s r w).bind (p.answer? r)).any Graphql.namesField

/-- The faults that reach the filter while a request is served: that of its root field and that of
its response. -/
def caught (p : Portal) (s : Store σ) (r : Request) (w : World σ) : List Fault :=
  ((p.scene? s r w).bind (p.fieldFault? r)).toList ++ (p.responseFault? s r w).toList

/-- What serving a request adds to the books. -/
def spent (p : Portal) (s : Store σ) (r : Request) (w : World σ) : Growth :=
  ⟨(p.isDenied s r w).toNat, (p.isRefused s r w).toNat, (p.isFieldError s r w).toNat,
    (p.caught s r w).countP fun f => f.status ≠ 401 ∧ f.status ≠ 403⟩

theorem weight_eq (f : Fault) :
    f.weight = if f.status ≠ 401 ∧ f.status ≠ 403 then 1 else 0 := by
  unfold Fault.weight Fault.isAuthorization
  by_cases h₁ : f.status = 401 <;> by_cases h₃ : f.status = 403 <;> simp [h₁, h₃]

theorem countP_toList (f? : Option Fault) :
    f?.toList.countP (fun f => f.status ≠ 401 ∧ f.status ≠ 403) =
      (f?.map Fault.weight).getD 0 := by
  cases f? with
  | none => rfl
  | some f =>
    rw [Option.map_some, Option.getD_some, weight_eq, Option.toList_some, List.countP_singleton]
    simp only [decide_eq_true_eq]

/-- What serving adds is what handling adds, and the fault of the response. -/
theorem spent_eq (p : Portal) (s : Store σ) (r : Request) (w : World σ) :
    p.spent s r w = (p.scene? s r w).elim .none (p.billed r) +
      ⟨0, 0, 0, ((p.responseFault? s r w).map Fault.weight).getD 0⟩ := by
  show _ = Growth.add _ _
  rw [spent, caught, List.countP_append, countP_toList, countP_toList, isDenied, isRefused,
    isFieldError]
  cases p.scene? s r w <;> simp [Growth.add, Growth.none, billed]

/-- The books before the filter. -/
theorem books_withSession (hreg : p.registry = Graphql.portalRegistry) (s : Store σ) (r : Request)
    (w : World σ) :
    Books p.collaborators.directory ((p.scene? s r w).elim .none (p.billed r)) w.ledger
      ((p.withSession s r).exec w).2.ledger := by
  obtain ⟨lines, hlines⟩ := Session.ledger_resolve p.keeper s r.cookieHeaders w
  have hjot : Books p.collaborators.directory .none w.ledger (w.ledger.jot lines) :=
    books_same rfl rfl
  cases hf : Storing.exec (p.keeper.resolve s r.cookieHeaders) w with
  | mk x w₁ =>
    rw [hf] at hlines
    have hledger : w₁.ledger = w.ledger.jot lines := hlines
    rw [← hledger] at hjot
    cases x with
    | error c =>
      rw [exec_withSession_crashed hf, scene?, hf]
      exact hjot
    | ok y =>
      cases y with
      | error e =>
        rw [exec_withSession_refused hf, exec_storeFailed, scene?, hf]
        exact hjot.idle (books_write _ _ _)
      | ok h =>
        have hhandled := books_handle hreg r (scene h w₁)
        have hdone := Session.ledger_carryOut p.keeper s (p.handleWith r h w₁).2.1.takePlan.1
          (p.handleWith r h w₁).2.2
        have hall := hjot.trans hhandled
        rw [Growth.none_add] at hall
        rw [exec_withSession_found hf, scene?, hf]
        revert hdone
        cases Storing.exec (p.keeper.carryOut s (p.handleWith r h w₁).2.1.takePlan.1)
            (p.handleWith r h w₁).2.2 with
        | mk x w₂ =>
          intro hdone
          have hkept : w₂.ledger = (exec (p.handle r) (scene h w₁)).2.ledger := hdone
          cases x with
          | error c =>
            dsimp only
            rw [hkept]
            exact hall
          | ok y =>
            cases y with
            | error e =>
              refine hall.idle ?_
              rw [← hkept]
              exact books_write _ _ _
            | ok cookie => cases cookie <;> exact hkept ▸ hall

/-- **What serving a request adds to the books**, whatever the store does. -/
theorem books_serve (hreg : p.registry = Graphql.portalRegistry) (s : Store σ) (r : Request)
    (w : World σ) :
    Books p.collaborators.directory (p.spent s r w) w.ledger ((p.serve s r).exec w).2.ledger := by
  have hinner := books_withSession hreg s r w
  rw [spent_eq, responseFault?, exec_serve]
  revert hinner
  cases (p.withSession s r).exec w with
  | mk x w₁ =>
    intro hinner
    cases x with
    | error c => exact hinner
    | ok inner =>
      dsimp only
      cases hf : inner.fault with
      | none =>
        rw [filterHttp_faultless hf]
        exact hinner
      | some f =>
        rw [filterHttp_of_fault hf]
        exact hinner.trans (books_record_http f r.method r.path w₁.ledger)

/-! ## No event counts twice -/

/-- The answer to a posted document comes to the filter as it is: the session is left alone, so
nothing has to be written back. -/
theorem withSession_answered (hreg : p.registry = Graphql.portalRegistry) {asked : Graphql.Asked}
    {answer : Json} (hpath : r.path = "/graphql") (hmethod : r.method = "POST")
    (hjson : r.json Graphql.Asked.decoder = .ok asked)
    (hfound : Storing.exec (p.keeper.resolve s r.cookieHeaders) w = (.ok (.ok h), w₁))
    (hanswer : (exec (Graphql.execute p.collaborators p.registry asked) (scene h w₁)).1 =
      .ok answer) :
    ((p.withSession s r).exec w).1 = .ok (.json 200 answer) := by
  have hroute : Route.ofPath? r.path = some .graphql := by rw [hpath]; exact ofPath?_graphql
  have hhandle := exec_handle_graphql (p := p) hpath hmethod hjson (scene h w₁)
  have hacts := (acts_execute (c := p.collaborators) hroute hjson (scene h w₁) rfl).1
  rw [← hreg] at hacts
  cases hexec : exec (Graphql.execute p.collaborators p.registry asked) (scene h w₁) with
  | mk x left =>
    rw [hexec] at hanswer hhandle hacts
    obtain rfl : x = .ok answer := hanswer
    have hsession : (p.handleWith r h w₁).2.1 = h := by
      rw [handleWith_eq, hhandle]
      exact hacts
    rw [exec_withSession_found hfound, hsession, Session.takePlan_of_resolve hfound]
    show Except.ok (p.handleWith r h w₁).1 = _
    rw [handleWith_eq, hhandle]

/-- The scene of a request is that of the session that was found or started for it. -/
theorem scene?_eq_some {start : Scene} (hstart : p.scene? s r w = some start) :
    ∃ h w₁, Storing.exec (p.keeper.resolve s r.cookieHeaders) w = (.ok (.ok h), w₁) ∧
      start = scene h w₁ := by
  unfold scene? at hstart
  split at hstart
  · next h w₁ hx =>
    cases hstart
    exact ⟨h, w₁, hx, rfl⟩
  · cases hstart

/-- A failure of a root field is not a fault of the response as well. -/
theorem responseFault?_of_field (hreg : p.registry = Graphql.portalRegistry) {f : Fault}
    (hf : (p.scene? s r w).bind (p.fieldFault? r) = some f) : p.responseFault? s r w = none := by
  obtain ⟨start, hstart, hfield⟩ := Option.bind_eq_some_iff.1 hf
  obtain ⟨h, w₁, hfound, rfl⟩ := scene?_eq_some hstart
  cases hasked : p.askedField? r with
  | none =>
    rw [fieldFault?, hasked] at hfield
    cases hfield
  | some found =>
    obtain ⟨asked, root, field⟩ := found
    obtain ⟨hpath, hmethod, hjson, hparse, hlookup⟩ := askedField?_eq_some hasked
    rw [fieldFault?, hasked] at hfield
    have hanswer := Graphql.exec_settle root (Graphql.runField p.collaborators field root)
      (Graphql.opened asked root (scene h w₁))
    rw [← Graphql.exec_execute_field (c := p.collaborators) hparse hlookup] at hanswer
    revert hfield hanswer
    dsimp only
    cases exec (Graphql.runField p.collaborators field root)
        (Graphql.opened asked root (scene h w₁)) with
    | mk x left =>
      intro hfield hanswer
      cases x with
      | ok value => cases hfield
      | error stop =>
        cases stop with
        | crashed payload => cases hfield
        | failed failure =>
          have hsent := withSession_answered hreg hpath hmethod hjson hfound
            (congrArg Prod.fst hanswer)
          rw [responseFault?, hsent]
          rfl

/-- A refusal of the gateway reaches the filter. -/
theorem caught_refused (hreg : p.registry = Graphql.portalRegistry)
    (hrefused : p.isRefused s r w = true) :
    (Failure.unauthorized Documents.notAuthorized).fault ∈ p.caught s r w := by
  rw [isRefused, Option.any_eq_true] at hrefused
  obtain ⟨start, hstart, hrefuses⟩ := hrefused
  rw [caught, hstart, Option.bind_some, List.mem_append, Option.mem_toList, Option.mem_toList]
  rcases handle_refused hreg hrefuses with hfield | ⟨l, hhandle⟩
  · exact .inl hfield
  · right
    obtain ⟨h, w₁, hfound, rfl⟩ := scene?_eq_some hstart
    have hsession : (p.handleWith r h w₁).2.1 = h := by
      rw [handleWith_eq, hhandle]
      rfl
    rw [responseFault?, exec_withSession_found hfound, hsession,
      Session.takePlan_of_resolve hfound]
    show (p.handleWith r h w₁).1.fault = _
    rw [handleWith_eq, hhandle]
    rfl

/-- What a request can cause once at most. -/
structure Once (p : Portal) (s : Store σ) (r : Request) (w : World σ) : Prop where
  /-- One fault reaches the filter at most, on either surface. -/
  fault : (p.caught s r w).length ≤ 1
  /-- A refusal of the gateway is a fault that says `Not authorized`. -/
  refused : p.isRefused s r w = true →
    (Failure.unauthorized Documents.notAuthorized).fault ∈ p.caught s r w
  /-- What is made of a document is what its sender gets. -/
  answered : ∀ answer, (p.scene? s r w).bind (p.answer? r) = some answer →
    ((p.serve s r).exec w).1 = .ok (.json 200 answer)
  /-- Each collaborator is called once at most. -/
  calls : ∃ c : Calls, ((p.serve s r).exec w).2.ledger.calls = w.ledger.calls ++ c ∧
    c.documents.length ≤ 1 ∧ c.directory.length ≤ 1 ∧ c.sync.length ≤ 1

/-- A handler calls each collaborator once at most. -/
theorem once_of_deed {c : Calls} (hdeed : Deed r h c) :
    c.documents.length ≤ 1 ∧ c.directory.length ≤ 1 ∧ c.sync.length ≤ 1 := by
  cases hdeed <;> simp [Calls.none]

/-- **No request counts one event twice.** -/
theorem once_serve (hreg : p.registry = Graphql.portalRegistry) (s : Store σ) (r : Request)
    (w : World σ) : p.Once s r w where
  fault := by
    rw [caught, List.length_append]
    cases hf : (p.scene? s r w).bind (p.fieldFault? r) with
    | none => cases p.responseFault? s r w <;> simp
    | some f => simp [responseFault?_of_field hreg hf]
  refused := caught_refused hreg
  answered := by
    intro answer hanswer
    obtain ⟨start, hstart, hanswered⟩ := Option.bind_eq_some_iff.1 hanswer
    obtain ⟨h, w₁, hfound, rfl⟩ := scene?_eq_some hstart
    unfold answer? at hanswered
    split at hanswered
    · next hg =>
      split at hanswered
      · cases hanswered
      · next asked hjson =>
        have hexec : (exec (Graphql.execute p.collaborators p.registry asked) (scene h w₁)).1 =
            .ok answer := by
          revert hanswered
          cases (exec (Graphql.execute p.collaborators p.registry asked) (scene h w₁)).1 with
          | error stop => intro hno; cases hno
          | ok found => intro hsome; cases hsome; rfl
        have hsent := withSession_answered hreg hg.1 hg.2 hjson hfound hexec
        rw [exec_serve]
        revert hsent
        cases (p.withSession s r).exec w with
        | mk x w₂ =>
          rintro rfl
          dsimp only
          rw [filterHttp_faultless rfl, finish_graphql hg.1 hg.2]
    · cases hanswered
  calls := by
    obtain ⟨c, hc, hdeed⟩ := serve_deed hreg s r w
    refine ⟨c, hc, ?_⟩
    rcases hdeed with rfl | ⟨h, -, hdeed⟩
    · exact ⟨Nat.zero_le 1, Nat.zero_le 1, Nat.zero_le 1⟩
    · exact once_of_deed hdeed

/-! ## Runs -/

/-- What a run adds to the books: the requests that were denied, those that were refused, those
whose field became an error, and the faults that were caught. -/
def total (p : Portal) (s : Store σ) (turns : List (Request × World σ)) : Growth :=
  ⟨turns.countP fun t => p.isDenied s t.1 t.2, turns.countP fun t => p.isRefused s t.1 t.2,
    turns.countP fun t => p.isFieldError s t.1 t.2,
    (turns.flatMap fun t => p.caught s t.1 t.2).countP fun f => f.status ≠ 401 ∧ f.status ≠ 403⟩

theorem total_cons (p : Portal) (s : Store σ) (r : Request) (w : World σ)
    (turns : List (Request × World σ)) :
    p.total s ((r, w) :: turns) = p.spent s r w + p.total s turns := by
  have hcount : ∀ (b : Bool) (n : Nat), n + (if b = true then 1 else 0) = b.toNat + n := by
    intro b n
    cases b
    · exact (Nat.zero_add n).symm
    · exact Nat.add_comm n 1
  show _ = Growth.add _ _
  simp only [total, spent, Growth.add, List.countP_cons, List.flatMap_cons,
    List.countP_append, hcount]

/-- **What a run adds to the books**: the events of its requests, each in its world. -/
theorem books_runOn (hreg : p.registry = Graphql.portalRegistry) (s : Store σ) (w : World σ)
    (es : List Event) :
    Books p.collaborators.directory (p.total s (p.turns s w es)) w.ledger
      (p.runOn s w es).ledger := by
  induction es generalizing w with
  | nil => exact books_refl _
  | cons e es ih =>
    cases e with
    | request r =>
      rw [turns, total_cons]
      exact (books_serve hreg s r w).trans (ih _)
    | pause ms => exact ih { w with clock := w.clock + ms }

/-- A run makes no more calls to a collaborator than it has requests. -/
theorem calls_runOn_le (hreg : p.registry = Graphql.portalRegistry) (s : Store σ) (w : World σ)
    (es : List Event) :
    (p.runOn s w es).ledger.documentCalls.length ≤ w.ledger.documentCalls.length + es.length ∧
      (p.runOn s w es).ledger.directoryCalls.length ≤ w.ledger.directoryCalls.length + es.length ∧
      (p.runOn s w es).ledger.syncCalls.length ≤ w.ledger.syncCalls.length + es.length := by
  induction es generalizing w with
  | nil => exact ⟨Nat.le_refl _, Nat.le_refl _, Nat.le_refl _⟩
  | cons e es ih =>
    cases e with
    | pause ms =>
      obtain ⟨hdocuments, hdirectory, hsync⟩ := ih { w with clock := w.clock + ms }
      exact ⟨Nat.le_succ_of_le hdocuments, Nat.le_succ_of_le hdirectory, Nat.le_succ_of_le hsync⟩
    | request r =>
      obtain ⟨hdocuments, hdirectory, hsync⟩ := ih ((p.serve s r).exec w).2
      obtain ⟨c, hc, hc₁, hc₂, hc₃⟩ := (once_serve hreg s r w).calls
      have hd :
          ((p.serve s r).exec w).2.ledger.documentCalls = w.ledger.documentCalls ++ c.documents :=
        congrArg Calls.documents hc
      have hp : ((p.serve s r).exec w).2.ledger.directoryCalls =
          w.ledger.directoryCalls ++ c.directory := congrArg Calls.directory hc
      have hs : ((p.serve s r).exec w).2.ledger.syncCalls = w.ledger.syncCalls ++ c.sync :=
        congrArg Calls.sync hc
      rw [hd, List.length_append] at hdocuments
      rw [hp, List.length_append] at hdirectory
      rw [hs, List.length_append] at hsync
      show (p.runOn s ((p.serve s r).exec w).2 es).ledger.documentCalls.length ≤ _ ∧
        (p.runOn s ((p.serve s r).exec w).2 es).ledger.directoryCalls.length ≤ _ ∧
        (p.runOn s ((p.serve s r).exec w).2 es).ledger.syncCalls.length ≤ _
      rw [List.length_cons]
      omega

/-- No more faults are caught than there are requests. -/
theorem length_caught_le (hreg : p.registry = Graphql.portalRegistry) (s : Store σ)
    (turns : List (Request × World σ)) :
    (turns.flatMap fun t => p.caught s t.1 t.2).length ≤ turns.length := by
  induction turns with
  | nil => exact Nat.le_refl 0
  | cons t turns ih =>
    have hfault := (once_serve hreg s t.1 t.2).fault
    rw [List.flatMap_cons, List.length_append, List.length_cons]
    omega

/-- What the counters say after a run, and that no request is counted twice for anything. -/
structure Accounts (p : Portal) (s : Store σ) (w : World σ) (es : List Event) : Prop where
  /-- File operations are calls to the document backend. -/
  fileOps : (p.runOn s w es).ledger.counters.fileOps.toNat =
    (p.runOn s w es).ledger.documentCalls.length
  /-- Refused file operations are refusals of the gateway. -/
  fileDenied : (p.runOn s w es).ledger.counters.fileDenied.toNat =
    (p.turns s w es).countP fun t => p.isRefused s t.1 t.2
  /-- Denials are those of guards, in front of routes and of root fields. -/
  authDenied : (p.runOn s w es).ledger.counters.authDenied.toNat =
    (p.turns s w es).countP fun t => p.isDenied s t.1 t.2
  /-- Logins that succeeded are questions that the directory answered with a person. -/
  loginsSucceeded : (p.runOn s w es).ledger.counters.loginsSucceeded.toNat =
    (p.collaborators.directory.verdicts [] (p.runOn s w es).ledger.directoryCalls).countP knows
  /-- Logins that failed are questions that the directory answered with nobody. -/
  loginsFailed : (p.runOn s w es).ledger.counters.loginsFailed.toNat =
    (p.collaborators.directory.verdicts [] (p.runOn s w es).ledger.directoryCalls).countP rejects
  /-- Triggered syncs are calls to the sync service. -/
  syncTriggered : (p.runOn s w es).ledger.counters.syncTriggered.toNat =
    (p.runOn s w es).ledger.syncCalls.length
  /-- Errors of fields are answers whose error names its field. -/
  graphqlErrors : (p.runOn s w es).ledger.counters.graphqlErrors.toNat =
    (p.turns s w es).countP fun t => p.isFieldError s t.1 t.2
  /-- Faults are those that reached the filter on either surface and are no denials. -/
  faults : (p.runOn s w es).ledger.counters.faults.toNat =
    ((p.turns s w es).flatMap fun t => p.caught s t.1 t.2).countP
      fun f => f.status ≠ 401 ∧ f.status ≠ 403
  once : ∀ t ∈ p.turns s w es, p.Once s t.1 t.2

/-- **The counters account for what happened.** After any run of fewer than 2^64 events on a ledger
that was empty, with any store, any calls to it refused and any collaborators, each counter is the
number of the events that it stands for, and no request has more than one of them. -/
theorem counters_account (p : Portal) (hreg : p.registry = Graphql.portalRegistry) (s : Store σ)
    (w : World σ) (hempty : w.ledger = .empty) (es : List Event)
    (hshort : es.length < UInt64.size) :
    p.Accounts s w es := by
  have hbooks := books_runOn hreg s w es
  have heven := hbooks.even (hempty ▸ even_empty _)
  obtain ⟨hdocuments, hdirectory, hsync⟩ := calls_runOn_le hreg s w es
  have hturns := p.length_turns_le s w es
  have hcaught := length_caught_le hreg s (p.turns s w es)
  have hverdicts := p.collaborators.directory.length_verdicts_le []
    (p.runOn s w es).ledger.directoryCalls
  -- a counter that equals a number of events is not past its end
  have hexact : ∀ {c : UInt64} {n : Nat}, c = .ofNat n → n ≤ es.length → c.toNat = n := by
    rintro c n rfl hn
    exact UInt64.toNat_ofNat_of_lt' (Nat.lt_of_le_of_lt hn hshort)
  have hgrown : ∀ {c : UInt64} {n : Nat}, c = 0 + .ofNat n → c = .ofNat n := by
    intro c n h
    rw [h, UInt64.zero_add]
  rw [hempty] at hbooks hdocuments hdirectory hsync
  have hdocuments : (p.runOn s w es).ledger.documentCalls.length ≤ es.length := by
    simpa [Ledger.empty] using hdocuments
  have hdirectory : (p.runOn s w es).ledger.directoryCalls.length ≤ es.length := by
    simpa [Ledger.empty] using hdirectory
  have hsync : (p.runOn s w es).ledger.syncCalls.length ≤ es.length := by
    simpa [Ledger.empty] using hsync
  refine ⟨?_, ?_, ?_, ?_, ?_, ?_, ?_, ?_, fun t _ => once_serve hreg s t.1 t.2⟩
  · exact hexact heven.fileOps hdocuments
  · exact hexact (hgrown hbooks.refused) (Nat.le_trans List.countP_le_length hturns)
  · exact hexact (hgrown hbooks.denied) (Nat.le_trans List.countP_le_length hturns)
  · exact hexact heven.loginsSucceeded
      (Nat.le_trans List.countP_le_length (Nat.le_trans hverdicts hdirectory))
  · exact hexact heven.loginsFailed
      (Nat.le_trans List.countP_le_length (Nat.le_trans hverdicts hdirectory))
  · exact hexact heven.syncTriggered hsync
  · exact hexact (hgrown hbooks.errors) (Nat.le_trans List.countP_le_length hturns)
  · exact hexact (hgrown hbooks.faults)
      (Nat.le_trans List.countP_le_length (Nat.le_trans hcaught hturns))

/-- Someone signs in at the rehearsal portal, and a stranger asks for a folder and who they are. -/
theorem counters_account_rehearsal :
    Rehearsal.portal.registry = Graphql.portalRegistry ∧
      (World.start Session.Memory.empty 0).ledger = .empty ∧
      [Event.request Rehearsal.signIn, .pause 1000, .request Rehearsal.strangerListsFolder,
        .request Rehearsal.asksSelf].length < UInt64.size ∧
      Rehearsal.portal.Accounts Session.Memory.store (World.start Session.Memory.empty 0)
        [.request Rehearsal.signIn, .pause 1000, .request Rehearsal.strangerListsFolder,
          .request Rehearsal.asksSelf] := by
  have hreg : Rehearsal.portal.registry = Graphql.portalRegistry := rfl
  have hempty : (World.start Session.Memory.empty 0).ledger = .empty := rfl
  have hshort :
      [Event.request Rehearsal.signIn, .pause 1000, .request Rehearsal.strangerListsFolder,
        .request Rehearsal.asksSelf].length < UInt64.size := by decide
  exact ⟨hreg, hempty, hshort,
    counters_account Rehearsal.portal hreg Session.Memory.store _ hempty _ hshort⟩

end Serving

end Portal

end Intranet
