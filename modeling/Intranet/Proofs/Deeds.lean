import Intranet.Proofs.Calls
import Intranet.Proofs.Json.Members

/-!
# What handling a request can do

Everything the portal does for a request happens in one handler behind one guard. This file says
once what that can be, for every route and every root field of the portal:

* `Deed` lists the calls to collaborators that a request can cause, each with all that was checked
  before it was made, and `handle_deed` says that handling a request makes such calls and no
  others;
* `signsIn?` is whom a request signs in and `SignsOut` says that it ends its session;
  `handle_signIn`, `handle_signOut` and `handle_other` say what becomes of the session, and that
  nothing else changes it.

Later proofs are case analyses over these and do not look at the handlers again.
-/

namespace Intranet

open Intranet.Task (exec exec_bind)
open Intranet.Http (Request Response)

/-! ## What a request asks for -/

/-- What a root field asks of the documents. -/
inductive FieldAsks (root : Graphql.RootField) : Documents.Request → Prop
  | folderFiles : root.operation = .query → root.name = "folderFiles" → FieldAsks root .listFolder
  | getFile : root.operation = .query → root.name = "getFile" → FieldAsks root .getFile
  | getFileUrl : root.operation = .query → root.name = "getFileURL" → FieldAsks root .fileUrl
  | putFile {text : String} {content : List UInt8} : root.operation = .mutation →
      root.name = "putFile" → Members.get? "content" root.arguments = some (.str text) →
      Base64.decode? text = some content → FieldAsks root (.putFile content)

/-- What a request asks of the documents, and under which path: a route of its own with the path in
the query, or a root field with the path as an argument. -/
inductive Asks (r : Request) : String → Documents.Request → Prop
  | listFolder {path : String} : Route.ofPath? r.path = some .files → r.method ≠ "PUT" →
      Portal.queryPath r = .ok path → Asks r path .listFolder
  | putFile {path : String} {content : List UInt8} : Route.ofPath? r.path = some .files →
      r.method = "PUT" → Portal.queryPath r = .ok path → r.bytes = .ok content →
      Asks r path (.putFile content)
  | getFile {path : String} : Route.ofPath? r.path = some .fileContent →
      Portal.queryPath r = .ok path → Asks r path .getFile
  | fileUrl {path : String} : Route.ofPath? r.path = some .fileUrl →
      Portal.queryPath r = .ok path → Asks r path .fileUrl
  | field {path : String} {request : Documents.Request} {asked : Graphql.Asked}
      {root : Graphql.RootField} : Route.ofPath? r.path = some .graphql →
      r.json Graphql.Asked.decoder = .ok asked →
      Graphql.parse asked.query (asked.given.getD []) = .ok root →
      Members.get? "path" root.arguments = some (.str path) → FieldAsks root request →
      Asks r path request

/-- The calls that a request may cause when it comes with a session. -/
inductive Deed (r : Request) (h : Session.Handle) : Calls → Prop
  | nothing : Deed r h .none
  | documents {path : String} {request : Documents.Request} {user : Principal} {secret : String}
      (asks : Asks r path request) (signedIn : h.principal = some user)
      (credential : h.credential = some secret) (given : secret ≠ "")
      (fit : checkPath path = .ok ()) :
      Deed r h ⟨[⟨request, ⟨user.login, secret⟩, path⟩], [], []⟩
  | profile {user : Principal} (route : Route.ofPath? r.path = some .profile)
      (signedIn : h.principal = some user) : Deed r h ⟨[], [.profile user.login], []⟩
  | authenticate {login password : String} (route : Route.ofPath? r.path = some .login)
      (posted : r.method = "POST") : Deed r h ⟨[], [.authenticate login password], []⟩
  | sync {user : Principal} (route : Route.ofPath? r.path = some .sync)
      (signedIn : h.principal = some user) (admin : h.isAdmin = true) :
      Deed r h ⟨[], [], [user.login]⟩

/-! ## File operations -/

section Files

variable {r : Request} {h : Session.Handle} {path : String}

/-- A file operation makes its call only for a person with a secret and for a path that documents
may have. -/
theorem acts_perform {backend : Documents.Backend} {request : Documents.Request}
    (hasks : Text.isBlankText path = false → Asks r path request) :
    Acts h (Handling.onLedger
      (Documents.perform backend ⟨h.principal, h.credential⟩ path request)) (Deed r h) := by
  refine acts_onLedger fun l => ?_
  rw [Documents.exec_perform]
  cases hc : Documents.credential? ⟨h.principal, h.credential⟩ path with
  | none => exact ⟨.none, (Calls.append_none _).symm, .nothing⟩
  | some credential =>
    cases hp : checkPath path with
    | error f => exact ⟨.none, (Calls.append_none _).symm, .nothing⟩
    | ok u =>
      obtain ⟨user, secret, huser, hsecret, hne, hblank, rfl⟩ := Documents.credential?_eq_some hc
      refine ⟨⟨[⟨request, ⟨user.login, secret⟩, path⟩], [], []⟩, ?_,
        .documents (hasks hblank) huser hsecret hne hp⟩
      simp only [Documents.delegated, Ledger.calls_addDocumentCall, Ledger.calls_write,
        Ledger.calls_count]

theorem acts_portal_perform {p : Portal} {request : Documents.Request}
    (hasks : Asks r path request) : Acts h (p.perform path request) (Deed r h) :=
  acts_caller_bind (acts_perform fun _ => hasks)

theorem acts_listFolder {p : Portal} (hroute : Route.ofPath? r.path = some .files)
    (hmethod : r.method ≠ "PUT") : Acts h (p.listFolder r) (Deed r h) := by
  rw [Portal.listFolder]
  split
  · exact (idle_pure _).acts .nothing
  · next hq =>
    exact acts_bind_idle (acts_portal_perform (.listFolder hroute hmethod hq)) fun _ => idle_pure _

theorem acts_putFile {p : Portal} (hroute : Route.ofPath? r.path = some .files)
    (hmethod : r.method = "PUT") : Acts h (p.putFile r) (Deed r h) := by
  rw [Portal.putFile]
  split
  · exact (idle_pure _).acts .nothing
  · next hq =>
    split
    · exact (idle_pure _).acts .nothing
    · next hb =>
      exact acts_bind_idle (acts_portal_perform (.putFile hroute hmethod hq hb))
        fun _ => idle_pure _

theorem acts_getFile {p : Portal} (hroute : Route.ofPath? r.path = some .fileContent) :
    Acts h (p.getFile r) (Deed r h) := by
  rw [Portal.getFile]
  split
  · exact (idle_pure _).acts .nothing
  · next hq =>
    exact acts_bind_idle (acts_portal_perform (.getFile hroute hq)) fun _ => idle_pure _

theorem acts_fileUrl {p : Portal} (hroute : Route.ofPath? r.path = some .fileUrl) :
    Acts h (p.fileUrl r) (Deed r h) := by
  rw [Portal.fileUrl]
  split
  · exact (idle_pure _).acts .nothing
  · next hq =>
    exact acts_bind_idle (acts_portal_perform (.fileUrl hroute hq)) fun _ => idle_pure _

end Files

/-! ## Root fields -/

section Fields

open Graphql (RootField Asked Query)

variable {r : Request} {h : Session.Handle} {root : RootField}

/-- A path that is not blank was given as an argument. -/
theorem get?_path_of_not_blank {q : Query} (hq : Text.isBlankText q.path = false) :
    Members.get? "path" q.arguments = some (.str q.path) := by
  have hblank : Text.isBlankText "" = true := by simp [Text.isBlankText]
  cases hm : Members.get? "path" q.arguments with
  | none => simp [Query.path, Query.optional, hm, hblank] at hq
  | some j =>
    cases j with
    | str s => simp [Query.path, Query.optional, hm, Json.str?]
    | _ => simp [Query.path, Query.optional, hm, Json.str?, hblank] at hq

/-- A required argument is there. -/
theorem get?_of_required {q : Query} {name text : String} (hq : q.required name = .ok text) :
    Members.get? name q.arguments = some (.str text) := by
  rw [Query.required] at hq
  split at hq
  · next s hs =>
    cases hq
    rw [Query.optional] at hs
    obtain ⟨j, hj, hstr⟩ := Option.bind_eq_some_iff.1 hs
    cases j with
    | str s => cases hstr; exact hj
    | _ => cases hstr
  · cases hq

/-- The path of a root field, once it is not blank, is what the request asks about. -/
theorem asks_field {asked : Asked} {request : Documents.Request} {who : Option Principal}
    (hroute : Route.ofPath? r.path = some .graphql)
    (hjson : r.json Asked.decoder = .ok asked)
    (hparse : Graphql.parse asked.query (asked.given.getD []) = .ok root)
    (hfield : FieldAsks root request)
    (hpath : Text.isBlankText (Query.path ⟨who, root.arguments⟩) = false) :
    Asks r (Query.path ⟨who, root.arguments⟩) request :=
  .field hroute hjson hparse (get?_path_of_not_blank hpath) hfield

/-- The field that stores a file looks at the credential first and at the content next; only then
it asks the backend. -/
theorem acts_putField {c : Collaborators} {who : Option Principal}
    (hasks : ∀ {request : Documents.Request}, FieldAsks root request →
      Text.isBlankText (Query.path ⟨who, root.arguments⟩) = false →
      Asks r (Query.path ⟨who, root.arguments⟩) request)
    (hop : root.operation = .mutation) (hname : root.name = "putFile") :
    Acts h (do
      discard (Handling.onLedger (Documents.requireCredential "put_file"
        ⟨h.principal, h.credential⟩ (Query.path ⟨who, root.arguments⟩)))
      let text ← Task.check (Query.required ⟨who, root.arguments⟩ "content")
      match Base64.decode? text with
      | none => Task.fail (.invalid "content" "Content must be base64 encoded")
      | some content =>
        let entry ← Handling.onLedger (Documents.perform c.documents ⟨h.principal, h.credential⟩
          (Query.path ⟨who, root.arguments⟩) (.putFile content))
        return entry.json.sorted) (Deed r h) := by
  refine acts_idle_bind ?_ .nothing fun _ => acts_check_bind .nothing fun text ht => ?_
  · refine idle_bind (idle_onLedger fun l => ?_) fun _ => idle_pure _
    cases hc : Documents.credential? ⟨h.principal, h.credential⟩
        (Query.path ⟨who, root.arguments⟩) with
    | none => rw [Documents.exec_requireCredential_none hc]; rfl
    | some credential => rw [Documents.exec_requireCredential_some hc]
  · split
    · exact (idle_fail _).acts .nothing
    · next content hdecode =>
      refine acts_bind_idle (acts_perform (hasks (.putFile hop hname ?_ hdecode)))
        fun _ => idle_pure _
      exact get?_of_required ht

theorem fields_portalRegistry : Graphql.portalRegistry.fields = Graphql.portalFields := rfl

/-- A root field of the portal makes the call that it stands for, and no other. -/
theorem acts_resolve {c : Collaborators} {asked : Asked} {field : Graphql.Field}
    {who : Option Principal} (hroute : Route.ofPath? r.path = some .graphql)
    (hjson : r.json Asked.decoder = .ok asked)
    (hparse : Graphql.parse asked.query (asked.given.getD []) = .ok root)
    (hlookup : Graphql.portalRegistry.lookup root.operation root.name = some field) :
    Acts h (field.resolve c ⟨who, root.arguments⟩) (Deed r h) := by
  have hmem : field ∈ Graphql.portalFields := by
    rw [← fields_portalRegistry]
    exact List.mem_of_find?_eq_some hlookup
  have hnames := List.find?_some hlookup
  simp only [Bool.and_eq_true, decide_eq_true_eq] at hnames
  obtain ⟨hop, hname⟩ := hnames
  simp only [Graphql.portalFields, List.mem_cons, List.not_mem_nil, or_false] at hmem
  have hasks {request : Documents.Request} (hf : FieldAsks root request)
      (hpath : Text.isBlankText (Query.path ⟨who, root.arguments⟩) = false) :
      Asks r (Query.path ⟨who, root.arguments⟩) request :=
    asks_field hroute hjson hparse hf hpath
  rcases hmem with rfl | rfl | rfl | rfl | rfl
  · show Acts h (Graphql.me c _) _
    rw [Graphql.me]
    cases who with
    | none => exact (idle_fail _).acts .nothing
    | some user => exact (idle_bind idle_session fun _ => idle_pure _).acts .nothing
  · exact acts_caller_bind
      (acts_bind_idle (acts_perform (hasks (.folderFiles hop.symm hname.symm)))
        fun _ => idle_pure _)
  · exact acts_caller_bind (acts_bind_idle (acts_perform (hasks (.getFile hop.symm hname.symm)))
      fun _ => idle_pure _)
  · exact acts_caller_bind (acts_bind_idle (acts_perform (hasks (.getFileUrl hop.symm hname.symm)))
      fun _ => idle_pure _)
  · exact acts_caller_bind (acts_putField hasks hop.symm hname.symm)

/-- A failure of a root field is written down and becomes an error; a crash goes on. -/
theorem Graphql.exec_settle (root : RootField) (run : Handling Json) (s : Scene) :
    exec (Graphql.settle root run) s =
      match exec run s with
      | (.ok value, scene) => (.ok (Graphql.dataBody root.key value), scene)
      | (.error (.crashed payload), scene) => (.error (.crashed payload), scene)
      | (.error (.failed f), scene) =>
        (.ok (Graphql.errorBody ⟨f.message, [root.key], f.code⟩),
          Handling.withLedger scene
            (f.fault.record (.graphql root.operation.typeName root.name) scene.ledger)) := by
  show (Graphql.settle root run).run.run s = _
  simp only [Graphql.settle, exec]
  rfl

/-- Settling a failure leaves calls and session alone. -/
theorem acts_settle {run : Handling Json} {P : Calls → Prop} (hrun : Acts h run P) :
    Acts h (Graphql.settle root run) P := by
  intro s hs
  have hr := hrun s hs
  rw [Graphql.exec_settle]
  revert hr
  cases exec run s with
  | mk x s₁ =>
    intro hr
    cases x with
    | ok value => exact hr
    | error stop =>
      cases stop with
      | crashed payload => exact hr
      | failed f =>
        obtain ⟨hsession, hdrawn, c, hc, hP⟩ := hr
        exact ⟨hsession, hdrawn, c, by rw [Fault.calls_record]; exact hc, hP⟩

/-- A guard in front of a root field calls nobody. -/
theorem idle_guarded (guard : Session.Guard) : Idle (Handling.guarded guard) := by
  intro h s hs
  cases hg : guard.check (some s.session) with
  | ok who =>
    rw [Handling.exec_guarded_ok hg]
    exact ⟨hs, rfl, .none, (Calls.append_none _).symm, rfl⟩
  | error denial =>
    rw [Handling.exec_guarded_error hg]
    exact ⟨hs, rfl, .none, (Calls.append_none _).symm, rfl⟩

theorem idle_reject (parent code message : String) : Idle (Graphql.reject parent code message) :=
  idle_bind (idle_write _ _) fun _ => idle_pure _

theorem acts_execute {c : Collaborators} {asked : Asked}
    (hroute : Route.ofPath? r.path = some .graphql) (hjson : r.json Asked.decoder = .ok asked) :
    Acts h (Graphql.execute c Graphql.portalRegistry asked) (Deed r h) := by
  rw [Graphql.execute]
  split
  · exact (idle_reject _ _ _).acts .nothing
  · next root hparse =>
    refine acts_idle_bind (idle_write _ _) .nothing fun _ => ?_
    split
    · exact (idle_reject _ _ _).acts .nothing
    · next field hlookup =>
      refine acts_settle (acts_idle_bind (idle_guarded _) .nothing fun who => ?_)
      exact acts_resolve hroute hjson hparse hlookup

theorem acts_respond {c : Collaborators} (hroute : Route.ofPath? r.path = some .graphql) :
    Acts h (Graphql.respond c Graphql.portalRegistry r) (Deed r h) := by
  rw [Graphql.respond]
  split
  · exact (idle_pure _).acts .nothing
  · next asked hjson => exact acts_bind_idle (acts_execute hroute hjson) fun _ => idle_pure _

end Fields

/-! ## The other routes -/

section Routes

variable {p : Portal} {r : Request} {h : Session.Handle}

theorem idle_ready : Idle p.ready := by
  rw [Portal.ready]
  split
  · exact idle_pure _
  · exact idle_bind (idle_write _ _) fun _ => idle_pure _
  · exact idle_pure _

theorem idle_metrics : Idle (Portal.metrics r) := idle_of_exec fun _ => rfl

theorem idle_exposition : Idle (Portal.exposition r) := idle_of_exec fun _ => rfl

/-- Who passes the guard for administrators is one. -/
theorem adminUser_eq_ok {user : Principal} (hu : Session.adminUser (some h) = .ok user) :
    h.principal = some user ∧ h.isAdmin = true := by
  simp only [Session.adminUser, Session.someone, Session.Guard.check, Option.bind_some,
    Option.any_some, Bool.and_eq_true] at hu
  split at hu
  · next hc =>
    cases hp : h.principal with
    | none => rw [hp] at hc; simp at hc
    | some who => rw [hp] at hu; cases hu; exact ⟨rfl, hc.2⟩
  · cases hu

theorem currentUser_eq_ok {user : Principal} (hu : Session.currentUser (some h) = .ok user) :
    h.principal = some user := by
  simp only [Session.currentUser, Session.someone, Session.Guard.check, Option.bind_some] at hu
  cases hp : h.principal with
  | none => rw [hp] at hu; cases hu
  | some who => rw [hp] at hu; cases hu; rfl

theorem idle_me : Idle Portal.me :=
  idle_bind idle_session fun _ => idle_bind (idle_check _) fun _ => idle_pure _

theorem acts_profile (hroute : Route.ofPath? r.path = some .profile) :
    Acts h p.profile (Deed r h) := by
  refine acts_session_bind (acts_check_bind .nothing fun user hu => ?_)
  refine acts_bind_idle (acts_onLedger fun l => ?_)
    fun _ => idle_bind (idle_check _) fun _ => idle_pure _
  exact ⟨⟨[], [.profile user.login], []⟩, by rw [Portal.exec_ask, Ledger.calls_addDirectoryCall],
    .profile hroute (currentUser_eq_ok hu)⟩

theorem acts_sync (hroute : Route.ofPath? r.path = some .sync) : Acts h p.sync (Deed r h) := by
  refine acts_session_bind (acts_check_bind .nothing fun user hu => ?_)
  refine acts_bind_idle (acts_onLedger fun l => ?_) fun _ => idle_pure _
  obtain ⟨hp, ha⟩ := adminUser_eq_ok hu
  exact ⟨⟨[], [], [user.login]⟩,
    by rw [Portal.exec_triggerSync, Ledger.calls_addSyncCall, Ledger.calls_count],
    .sync hroute hp ha⟩

end Routes

/-! ## Signing in and out -/

/-- Whom a request signs in, and with which password: it posts credentials, neither of them blank,
that the directory knows. What the directory says may depend on what it was asked earlier. -/
def Portal.signsIn? (p : Portal) (earlier : List DirectoryCall) (r : Request) :
    Option (Principal × String) :=
  if r.path = "/auth/login" ∧ r.method = "POST" then
    match r.json Portal.Credentials.decoder with
    | .error _ => none
    | .ok c =>
      if Text.isBlankText c.login || Text.isBlankText c.password then none
      else
        match p.collaborators.directory earlier (.authenticate (Text.trim c.login) c.password) with
        | .ok (some user) => some (user, c.password)
        | _ => none
  else none

/-- The request ends its session. -/
def SignsOut (r : Request) : Prop := r.path = "/auth/logout" ∧ r.method = "POST"

theorem ofPath?_login : Route.ofPath? "/auth/login" = some .login := by rfl

theorem ofPath?_logout : Route.ofPath? "/auth/logout" = some .logout := by rfl

theorem ofPath?_graphql : Route.ofPath? "/graphql" = some .graphql := by rfl

theorem eq_of_ofPath?_login {path : String} (h : Route.ofPath? path = some .login) :
    path = "/auth/login" := by
  unfold Route.ofPath? at h
  split at h <;> first | rfl | cases h

theorem eq_of_ofPath?_logout {path : String} (h : Route.ofPath? path = some .logout) :
    path = "/auth/logout" := by
  unfold Route.ofPath? at h
  split at h <;> first | rfl | cases h

theorem eq_of_ofPath?_graphql {path : String} (h : Route.ofPath? path = some .graphql) :
    path = "/graphql" := by
  unfold Route.ofPath? at h
  split at h <;> first | rfl | cases h

/-- After signing in, the session is one of an administrator exactly if the principal is one,
whatever the session was before. -/
theorem Session.Handle.isAdmin_login (id : Session.Id) (user : Principal) (secret : Option String)
    (h : Session.Handle) : (h.login id user secret).isAdmin = user.isAdmin := by
  simp [Session.Handle.isAdmin, Session.Handle.principal, Session.Handle.claim,
    Session.Handle.login, Members.get?_insert_self, Json.bool?]

section SigningIn

variable {p : Portal} {r : Request} {s : Scene}

/-- The ledger after someone has signed in. -/
def Ledger.signedIn (login password : String) (user : Principal) (l : Ledger) : Ledger :=
  ((l.addDirectoryCall (.authenticate login password)).count .countLoginSucceeded).write .info
    ("User " ++ user.login ++ " signed in")

theorem exec_signIn_known {c : Portal.Credentials} {user : Principal}
    (hlogin : Text.isBlankText c.login = false) (hpassword : Text.isBlankText c.password = false)
    (hknown : p.collaborators.directory s.ledger.directoryCalls
      (.authenticate (Text.trim c.login) c.password) = .ok (some user)) :
    exec (p.signIn c) s =
      (.ok (.json 200 (user.view user.isAdmin)),
        ⟨s.ledger.signedIn (Text.trim c.login) c.password user,
          s.session.login (p.keeper.ids s.drawn) user (some c.password), s.drawn + 1⟩) := by
  have hl : checkRequired c.login "login" = .ok () := by simp [checkRequired, hlogin]
  have hp : checkRequired c.password "password" = .ok () := by simp [checkRequired, hpassword]
  have hwho : (s.session.login (p.keeper.ids s.drawn) user (some c.password)).principal =
      some user := rfl
  simp only [Portal.signIn, hl, hp, exec_bind, Task.exec_check_ok, Handling.exec_onLedger,
    Portal.exec_ask_authenticate, hknown, Task.exec_count, Task.exec_write, Portal.establish,
    Task.exec_modify, Handling.exec_session, hwho, Task.exec_pure, Session.Handle.isAdmin_login]
  rfl

/-- When the directory knows nobody of these credentials, it was asked at most, and the session
stays. -/
theorem signIn_unknown {c : Portal.Credentials} (hroute : Route.ofPath? r.path = some .login)
    (hmethod : r.method = "POST")
    (hunknown : Text.isBlankText c.login = false → Text.isBlankText c.password = false →
      ∀ user, p.collaborators.directory s.ledger.directoryCalls
        (.authenticate (Text.trim c.login) c.password) ≠ .ok (some user)) :
    (exec (p.signIn c) s).2.session = s.session ∧ (exec (p.signIn c) s).2.drawn = s.drawn ∧
      ∃ d, (exec (p.signIn c) s).2.ledger.calls = s.ledger.calls ++ d ∧ Deed r s.session d := by
  cases hl : checkRequired c.login "login" with
  | error f =>
    simp only [Portal.signIn, hl, exec_bind, Task.exec_check_error]
    exact ⟨trivial, trivial, .none, (Calls.append_none _).symm, .nothing⟩
  | ok u =>
    cases hp : checkRequired c.password "password" with
    | error f =>
      simp only [Portal.signIn, hl, hp, exec_bind, Task.exec_check_ok, Task.exec_check_error]
      exact ⟨trivial, trivial, .none, (Calls.append_none _).symm, .nothing⟩
    | ok u =>
      have hlogin : Text.isBlankText c.login = false := by simpa [checkRequired] using hl
      have hpassword : Text.isBlankText c.password = false := by simpa [checkRequired] using hp
      cases hd : p.collaborators.directory s.ledger.directoryCalls
          (.authenticate (Text.trim c.login) c.password) with
      | error stop =>
        simp only [Portal.signIn, hl, hp, exec_bind, Task.exec_check_ok, Handling.exec_onLedger,
          Portal.exec_ask_authenticate, hd]
        exact ⟨trivial, trivial, _, Ledger.calls_addDirectoryCall _ _,
          .authenticate hroute hmethod⟩
      | ok found =>
        cases found with
        | some user => exact absurd hd (hunknown hlogin hpassword user)
        | none =>
          simp only [Portal.signIn, hl, hp, exec_bind, Task.exec_check_ok, Handling.exec_onLedger,
            Portal.exec_ask_authenticate, hd, Task.exec_count, Task.exec_write, Task.exec_fail,
            Ledger.calls_write, Ledger.calls_count]
          exact ⟨trivial, trivial, _, Ledger.calls_addDirectoryCall _ _,
            .authenticate hroute hmethod⟩

/-- What it takes for a request to sign someone in. -/
theorem signsIn?_eq_some {earlier : List DirectoryCall} {user : Principal} {password : String}
    (h : p.signsIn? earlier r = some (user, password)) :
    r.path = "/auth/login" ∧ r.method = "POST" ∧ ∃ c : Portal.Credentials,
      r.json Portal.Credentials.decoder = .ok c ∧ c.password = password ∧
      Text.isBlankText c.login = false ∧ Text.isBlankText c.password = false ∧
      p.collaborators.directory earlier (.authenticate (Text.trim c.login) c.password) =
        .ok (some user) := by
  unfold Portal.signsIn? at h
  split at h
  · next hr =>
    refine ⟨hr.1, hr.2, ?_⟩
    split at h
    · cases h
    · next c hc =>
      split at h
      · cases h
      · next hblank =>
        simp only [Bool.or_eq_true, not_or, Bool.not_eq_true] at hblank
        split at h
        · next who hd => cases h; exact ⟨c, hc, rfl, hblank.1, hblank.2, hd⟩
        · cases h
  · cases h

theorem exec_login_known {user : Principal} {password : String}
    (h : p.signsIn? s.ledger.directoryCalls r = some (user, password)) :
    ∃ login, exec (p.login r) s =
      (.ok (.json 200 (user.view user.isAdmin)),
        ⟨s.ledger.signedIn login password user,
          s.session.login (p.keeper.ids s.drawn) user (some password), s.drawn + 1⟩) := by
  obtain ⟨-, -, c, hc, rfl, hlogin, hpassword, hd⟩ := signsIn?_eq_some h
  refine ⟨Text.trim c.login, ?_⟩
  simp only [Portal.login, hc]
  exact exec_signIn_known hlogin hpassword hd

theorem login_unknown (hpath : r.path = "/auth/login") (hmethod : r.method = "POST")
    (h : p.signsIn? s.ledger.directoryCalls r = none) :
    (exec (p.login r) s).2.session = s.session ∧ (exec (p.login r) s).2.drawn = s.drawn ∧
      ∃ d, (exec (p.login r) s).2.ledger.calls = s.ledger.calls ++ d ∧ Deed r s.session d := by
  rw [Portal.login]
  split
  · exact (idle_pure _).acts .nothing s rfl
  · next c hc =>
    refine signIn_unknown (by rw [hpath]; exact ofPath?_login) hmethod ?_
    intro hlogin hpassword user hd
    simp [Portal.signsIn?, hpath, hmethod, hc, hlogin, hpassword, hd] at h

/-- Signing out marks the session and calls nobody. -/
theorem exec_logout (s : Scene) :
    ∃ l : Ledger, l.calls = s.ledger.calls ∧
      exec Portal.logout s = (.ok (.empty 204), ⟨l, s.session.destroy, s.drawn⟩) := by
  cases hp : s.session.principal with
  | none =>
    refine ⟨s.ledger, rfl, ?_⟩
    simp only [Portal.logout, exec_bind, Handling.exec_session, hp, Task.exec_pure,
      Handling.exec_changeSession]
  | some user =>
    refine ⟨s.ledger.write .info ("User " ++ user.login ++ " signed out"), rfl, ?_⟩
    simp only [Portal.logout, exec_bind, Handling.exec_session, hp, Task.exec_pure,
      Handling.exec_onLedger, Task.exec_write, Handling.exec_changeSession]

end SigningIn

/-! ## Every request -/

section Handling

variable {p : Portal} {r : Request} {s : Scene}

theorem exec_pass_ok {guard : Session.Guard} {who : Option Principal}
    (h : guard.check (some s.session) = .ok who) : exec (Portal.pass guard r) s = (.ok (), s) := by
  simp only [Portal.pass, exec_bind, Handling.exec_session, h, Task.exec_pure]

/-- A denial is counted and written down, and the request goes no further. -/
theorem exec_pass_error {guard : Session.Guard} {denial : Failure}
    (h : guard.check (some s.session) = .error denial) :
    exec (Portal.pass guard r) s =
      (.error (.failed denial),
        Handling.withLedger s ((s.ledger.count .countAuthDenied).write .debug
          (guard.name ++ " guard denied " ++ r.method ++ " " ++ r.path))) := by
  simp only [Portal.pass, exec_bind, Handling.exec_session, h, Handling.exec_onLedger,
    Task.exec_count, Task.exec_write, Task.exec_fail]

theorem idle_pass (guard : Session.Guard) : Idle (Portal.pass guard r) := by
  intro h s hs
  cases hg : guard.check (some s.session) with
  | ok who => rw [exec_pass_ok hg]; exact ⟨hs, rfl, .none, (Calls.append_none _).symm, rfl⟩
  | error denial =>
    rw [exec_pass_error hg]
    exact ⟨hs, rfl, .none, (Calls.append_none _).symm, rfl⟩

/-- Every handler but those for signing in and out leaves the session alone. -/
theorem acts_handler {route : Route} {t : Handling Response} (h : Session.Handle)
    (hreg : p.registry = Graphql.portalRegistry) (hroute : Route.ofPath? r.path = some route)
    (ht : p.handler? r route = some t) (hin : ¬(route = .login ∧ r.method = "POST"))
    (hout : route ≠ .logout) : Acts h t (Deed r h) := by
  unfold Portal.handler? at ht
  split at ht
  · cases ht
  · cases ht
    cases route with
    | health => exact (idle_pure _).acts .nothing
    | ready => exact idle_ready.acts .nothing
    | version => exact (idle_pure _).acts .nothing
    | metrics => exact idle_metrics.acts .nothing
    | exposition => exact idle_exposition.acts .nothing
    | login =>
      show Acts h (if r.method = "POST" then _ else _) _
      rw [if_neg fun hm => hin ⟨rfl, hm⟩]
      exact (idle_pure _).acts .nothing
    | logout => exact absurd rfl hout
    | graphql =>
      show Acts h (Graphql.respond p.collaborators p.registry r) _
      rw [hreg]
      exact acts_respond hroute
    | me => exact idle_me.acts .nothing
    | profile => exact acts_profile hroute
    | files =>
      show Acts h (if r.method = "PUT" then _ else _) _
      split
      · next hm => exact acts_putFile hroute hm
      · next hm => exact acts_listFolder hroute hm
    | fileContent => exact acts_getFile hroute
    | fileUrl => exact acts_fileUrl hroute
    | sync => exact acts_sync hroute

/-- A request that the guard of its route lets pass comes to the handler. -/
theorem exec_handle_passed {route : Route} {who : Option Principal}
    (hroute : Route.ofPath? r.path = some route)
    (hguard : route.guard.check (some s.session) = .ok who) :
    exec (p.handle r) s = exec ((p.handler? r route).getD (pure (.empty 405))) s := by
  simp only [Portal.handle, hroute, Task.exec_bind_ok (exec_pass_ok hguard)]

theorem exec_handle_everyone {route : Route} {t : Handling Response}
    (hroute : Route.ofPath? r.path = some route) (hguard : route.guard = .everyone)
    (ht : p.handler? r route = some t) : exec (p.handle r) s = exec t s := by
  have hcheck : route.guard.check (some s.session) = .ok s.session.principal := by
    rw [hguard]
    rfl
  rw [exec_handle_passed hroute hcheck, ht, Option.getD_some]

theorem handler?_login (hmethod : r.method = "POST") : p.handler? r .login = some (p.login r) := by
  simp [Portal.handler?, Route.methods, hmethod]

theorem handler?_logout (hmethod : r.method = "POST") :
    p.handler? r .logout = some Portal.logout := by
  simp [Portal.handler?, Route.methods, hmethod]

/-- A document that is posted comes to its handler. -/
theorem exec_handle_posted (hpath : r.path = "/graphql") (hmethod : r.method = "POST") :
    exec (p.handle r) s = exec (Graphql.respond p.collaborators p.registry r) s := by
  refine exec_handle_everyone (by rw [hpath]; exact ofPath?_graphql) rfl ?_
  simp [Portal.handler?, Route.methods, hmethod]

/-- **Signing in.** The session is that of the principal from now on, under an identifier that was
just drawn, with the password as its credential. -/
theorem handle_signIn {user : Principal} {password : String}
    (h : p.signsIn? s.ledger.directoryCalls r = some (user, password)) :
    ∃ login, exec (p.handle r) s =
      (.ok (.json 200 (user.view user.isAdmin)),
        ⟨s.ledger.signedIn login password user,
          s.session.login (p.keeper.ids s.drawn) user (some password), s.drawn + 1⟩) := by
  obtain ⟨hpath, hmethod, -⟩ := signsIn?_eq_some h
  rw [exec_handle_everyone (by rw [hpath]; exact ofPath?_login) rfl (handler?_login hmethod)]
  exact exec_login_known h

/-- **Signing out.** The session is marked for removal. -/
theorem handle_signOut (h : SignsOut r) :
    ∃ l : Ledger, l.calls = s.ledger.calls ∧
      exec (p.handle r) s = (.ok (.empty 204), ⟨l, s.session.destroy, s.drawn⟩) := by
  obtain ⟨hpath, hmethod⟩ := h
  rw [exec_handle_everyone (by rw [hpath]; exact ofPath?_logout) rfl (handler?_logout hmethod)]
  exact exec_logout s

/-- **Everything else.** Any other request leaves its session as it is, and makes only the calls
that it may make. -/
theorem handle_other (hreg : p.registry = Graphql.portalRegistry)
    (hin : p.signsIn? s.ledger.directoryCalls r = none) (hout : ¬SignsOut r) :
    (exec (p.handle r) s).2.session = s.session ∧ (exec (p.handle r) s).2.drawn = s.drawn ∧
      ∃ c, (exec (p.handle r) s).2.ledger.calls = s.ledger.calls ++ c ∧ Deed r s.session c := by
  cases hroute : Route.ofPath? r.path with
  | none =>
    simp only [Portal.handle, hroute]
    exact (idle_pure _).acts .nothing s rfl
  | some route =>
    by_cases hlogin : route = .login ∧ r.method = "POST"
    · obtain ⟨rfl, hmethod⟩ := hlogin
      rw [exec_handle_everyone hroute rfl (handler?_login hmethod)]
      exact login_unknown (eq_of_ofPath?_login hroute) hmethod hin
    · have hacts : Acts s.session (p.handle r) (Deed r s.session) := by
        have hgetD : Acts s.session ((p.handler? r route).getD (pure (.empty 405)))
            (Deed r s.session) := by
          cases ht : p.handler? r route with
          | none => exact (idle_pure _).acts .nothing
          | some t =>
            refine acts_handler s.session hreg hroute ht hlogin ?_
            rintro rfl
            refine hout ⟨eq_of_ofPath?_logout hroute, ?_⟩
            by_cases hm : r.method = "POST"
            · exact hm
            · simp [Portal.handler?, Route.methods, hm] at ht
        simp only [Portal.handle, hroute]
        exact acts_idle_bind (idle_pass _) .nothing fun _ => hgetD
      exact hacts s rfl

/-- **What a request can cause.** Whatever the session that comes with it, handling a request makes
only the calls of a `Deed`. -/
theorem handle_deed (hreg : p.registry = Graphql.portalRegistry) :
    ∃ c, (exec (p.handle r) s).2.ledger.calls = s.ledger.calls ++ c ∧ Deed r s.session c := by
  cases hin : p.signsIn? s.ledger.directoryCalls r with
  | some found =>
    obtain ⟨user, password⟩ := found
    obtain ⟨login, hexec⟩ := handle_signIn hin
    obtain ⟨hpath, hmethod, -⟩ := signsIn?_eq_some hin
    rw [hexec]
    refine ⟨⟨[], [.authenticate login password], []⟩, ?_,
      .authenticate (by rw [hpath]; exact ofPath?_login) hmethod⟩
    simp only [Ledger.signedIn, Ledger.calls_write, Ledger.calls_count,
      Ledger.calls_addDirectoryCall]
  | none =>
    by_cases hout : SignsOut r
    · obtain ⟨l, hl, hexec⟩ := handle_signOut (p := p) (s := s) hout
      rw [hexec]
      exact ⟨.none, by rw [Calls.append_none]; exact hl, .nothing⟩
    · exact (handle_other hreg hin hout).2.2

end Handling

end Intranet
