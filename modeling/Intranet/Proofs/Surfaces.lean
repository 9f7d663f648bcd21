import Intranet.Proofs.Base64
import Intranet.Proofs.Form
import Intranet.Proofs.Tasks
import Intranet.Rehearsal

/-!
# One gateway, two surfaces

The four file operations can be asked for in two ways: by a request of their own, or by a root
field. The two are written apart. The root field that stores a file even looks at the credential
before it looks at the content, and leaves the rest to the gateway, which looks at the credential
again. What they do all the same is one operation of the gateway.

* `Http.Request.names_onFile` and `Graphql.Query.names_onFile` — every path can be named on either
  surface;
* `exec_answerFile` and `exec_fileResolver` — either surface does what the gateway does, and shows
  its reply in its own way;
* `surfaces_agree` — from the same scene both leave the same scene, and either both fail in the
  same way or both succeed with the same value;
* `fileUrl_values_differ` — the value is not the same to the letter for addresses: a request gets
  an object with the address in it, a root field the address alone.
-/

namespace Intranet

open Intranet.Task (exec exec_bind)
open Intranet.Http (Response)

/-! ## What is asked for -/

/-- The handler of a file operation. -/
def Portal.fileHandler (p : Portal) (r : Http.Request) : Documents.Request → Handling Response
  | .listFolder => p.listFolder r
  | .putFile _ => p.putFile r
  | .getFile => p.getFile r
  | .fileUrl => p.fileUrl r

/-- The resolver of a file operation. -/
def Graphql.fileResolver : Documents.Request → Graphql.Resolver
  | .listFolder => Graphql.folderFiles
  | .putFile _ => Graphql.putFile
  | .getFile => Graphql.getFile
  | .fileUrl => Graphql.getFileUrl

/-- A request names a path in its query and has the content of a file to be stored as its body. -/
structure Http.Request.Names (r : Http.Request) (path : String)
    (request : Documents.Request) : Prop where
  path : Portal.queryPath r = .ok path
  content : ∀ content, request = .putFile content → r.bytes = .ok content

/-- Arguments name a path, and the content of a file to be stored in base64. -/
structure Graphql.Query.Names (q : Graphql.Query) (path : String) (request : Documents.Request) :
    Prop where
  path : q.path = path
  content : ∀ content, request = .putFile content →
    q.required "content" = .ok (Base64.encode content)

/-- A request for a file operation, with what it names. -/
def Http.Request.onFile (path : String) (body : List UInt8) : Http.Request where
  method := "GET"
  path := "/api/files"
  query := some (Http.Form.queryOf "path" path)
  headers := []
  body := body
  reference := ""
  uptime := 0

/-- The arguments for a file operation. -/
def Graphql.Query.onFile (who : Option Principal) (path : String) (content : List UInt8) :
    Graphql.Query :=
  ⟨who, [("path", .str path), ("content", .str (Base64.encode content))]⟩

/-- Every path can be named by a request, and every content that is not too long for a body. -/
theorem Http.Request.names_onFile {path : String} {request : Documents.Request} {body : List UInt8}
    (hbody : ∀ content, request = .putFile content → content = body ∧ body.length ≤ Http.maxBody) :
    (Http.Request.onFile path body).Names path request where
  path := by
    have hpairs : Http.Form.decode ((Http.Request.onFile path body).query.getD "") =
        [("path", path)] :=
      Http.Form.decode_queryOf "path" path
    rw [Portal.queryPath, hpairs]
    rfl
  content := by
    intro content hcontent
    obtain ⟨rfl, hlength⟩ := hbody content hcontent
    exact if_pos hlength

/-- Every path and every content can be named by arguments. -/
theorem Graphql.Query.names_onFile {path : String} {request : Documents.Request}
    {content : List UInt8} (who : Option Principal)
    (hcontent : ∀ found, request = .putFile found → found = content) :
    (Graphql.Query.onFile who path content).Names path request where
  path := rfl
  content := by
    intro found hfound
    rw [hcontent found hfound]
    rfl

/-! ## What is shown -/

/-- The response that shows a reply. -/
def Documents.response : (request : Documents.Request) → request.Reply → Response
  | .listFolder, entries => .json 200 (.arr (entries.map Documents.Entry.json))
  | .putFile _, entry => .json 201 entry.json
  | .getFile, content => .ofBytes 200 "application/octet-stream" content
  | .fileUrl, url => .json 200 (.obj [("url", .str url)])

/-- The value that shows a reply. -/
def Documents.value : (request : Documents.Request) → request.Reply → Json
  | .listFolder, entries => (Json.arr (entries.map Documents.Entry.json)).sorted
  | .putFile _, entry => entry.json.sorted
  | .getFile, content => .str (Base64.encode content)
  | .fileUrl, url => .str url

/-- The work of a handler once path and content are read off the request. -/
def Portal.answerFile (p : Portal) (path : String) (request : Documents.Request) :
    Handling Response := do
  let reply ← p.perform path request
  return Documents.response request reply

section Surfaces

variable {p : Portal} {path : String} {request : Documents.Request}

/-- Showing a result changes nothing else. -/
theorem exec_shown {α β : Type} (t : Handling α) (render : α → β) (s : Scene) :
    exec (do let a ← t; pure (render a)) s = ((exec t s).1.map render, (exec t s).2) := by
  rw [exec_bind]
  cases exec t s with
  | mk x s₁ => cases x <;> rfl

/-- A handler does nothing but this. -/
theorem fileHandler_eq {r : Http.Request} (hr : r.Names path request) :
    p.fileHandler r request = p.answerFile path request := by
  cases request with
  | listFolder => simp only [Portal.fileHandler, Portal.listFolder, hr.path]; rfl
  | putFile content =>
    simp only [Portal.fileHandler, Portal.putFile, hr.path, hr.content content rfl]
    rfl
  | getFile => simp only [Portal.fileHandler, Portal.getFile, hr.path]; rfl
  | fileUrl => simp only [Portal.fileHandler, Portal.fileUrl, hr.path]; rfl

theorem exec_answerFile (p : Portal) (path : String) (request : Documents.Request) (s : Scene) :
    exec (p.answerFile path request) s =
      ((exec (p.perform path request) s).1.map (Documents.response request),
        (exec (p.perform path request) s).2) :=
  exec_shown _ _ s

theorem exec_discard {α : Type} (t : Handling α) (s : Scene) :
    exec (discard t) s = ((exec t s).1.map fun _ => (), (exec t s).2) :=
  exec_shown t (fun _ => ()) s

/-- The portal asks the gateway for the person who is signed in. -/
theorem exec_portal_perform (p : Portal) (path : String)
    (request : Documents.Request) (s : Scene) :
    exec (p.perform path request) s =
      exec (Handling.onLedger (Documents.perform p.collaborators.documents
        ⟨s.session.principal, s.session.credential⟩ path request)) s := by
  rw [Portal.perform, exec_bind, Handling.exec_caller]

/-- A resolver that asks the gateway and shows its reply. -/
theorem exec_resolved (p : Portal) (path : String) (request : Documents.Request)
    (render : request.Reply → Json) (s : Scene) :
    exec (do
        let caller ← Handling.caller
        let reply ← Handling.onLedger
          (Documents.perform p.collaborators.documents caller path request)
        pure (render reply)) s =
      ((exec (p.perform path request) s).1.map render, (exec (p.perform path request) s).2) := by
  rw [exec_bind, Handling.exec_caller, exec_portal_perform]
  exact exec_shown _ _ s

/-- The resolver that stores a file refuses whom the gateway refuses, and in the same way. -/
theorem exec_putFile {q : Graphql.Query} {content : List UInt8}
    (hq : q.Names path (.putFile content)) (s : Scene) :
    exec (Graphql.putFile p.collaborators q) s =
      ((exec (p.perform path (.putFile content)) s).1.map (Documents.value (.putFile content)),
        (exec (p.perform path (.putFile content)) s).2) := by
  have hpath := hq.path
  subst hpath
  rw [Graphql.putFile, exec_bind, Handling.exec_caller, exec_portal_perform]
  dsimp only
  cases hc : Documents.credential? ⟨s.session.principal, s.session.credential⟩ q.path with
  | none =>
    -- the early look at the credential ends the resolver just as the gateway would
    rw [exec_bind, exec_discard, Handling.exec_onLedger, Handling.exec_onLedger,
      Documents.exec_requireCredential_none hc, Documents.exec_perform, hc]
    rfl
  | some credential =>
    rw [exec_bind, exec_discard, Handling.exec_onLedger, Documents.exec_requireCredential_some hc]
    dsimp only [Except.map]
    rw [exec_bind, hq.content content rfl, Task.exec_check_ok]
    dsimp only
    rw [Base64.decode?_encode]
    exact exec_shown _ _ s

theorem exec_fileResolver {q : Graphql.Query} (hq : q.Names path request) (s : Scene) :
    exec (Graphql.fileResolver request p.collaborators q) s =
      ((exec (p.perform path request) s).1.map (Documents.value request),
        (exec (p.perform path request) s).2) := by
  have hpath := hq.path
  subst hpath
  cases request with
  | listFolder => exact exec_resolved p q.path .listFolder (Documents.value .listFolder) s
  | putFile content => exact exec_putFile hq s
  | getFile => exact exec_resolved p q.path .getFile (Documents.value .getFile) s
  | fileUrl => exact exec_resolved p q.path .fileUrl (Documents.value .fileUrl) s

/-! ## Agreement -/

/-- A response and a value show the same reply: the response has the value in its body, with the
members of its objects in an order of their own. Of a file it has the bytes whose base64 the value
is, and of an address an object with the address in it. -/
inductive Documents.Alike : Documents.Request → Response → Json → Prop
  | listFolder (value : Json) : Alike .listFolder (.json 200 value) value.sorted
  | putFile (content : List UInt8) (value : Json) :
      Alike (.putFile content) (.json 201 value) value.sorted
  | getFile (content : List UInt8) :
      Alike .getFile (.ofBytes 200 "application/octet-stream" content)
        (.str (Base64.encode content))
  | fileUrl (url : String) : Alike .fileUrl (.json 200 (.obj [("url", .str url)])) (.str url)

/-- Two results of one operation agree: either both show the same reply, or both stopped for the
same reason. -/
inductive Documents.Agree (request : Documents.Request) :
    Except Stop Response → Except Stop Json → Prop
  | done {response : Response} {value : Json} (alike : Documents.Alike request response value) :
      Agree request (.ok response) (.ok value)
  | stopped (stop : Stop) : Agree request (.error stop) (.error stop)

/-- What is shown of a reply is alike. -/
theorem alike_shown (request : Documents.Request) (reply : request.Reply) :
    Documents.Alike request (Documents.response request reply)
      (Documents.value request reply) := by
  cases request with
  | listFolder => exact .listFolder _
  | putFile content => exact .putFile content _
  | getFile => exact .getFile reply
  | fileUrl => exact .fileUrl reply

/-- **One gateway, two surfaces.** A request that names a path and the resolver of the same
operation, from any scene and whatever the backend answers, make the same calls, write down and
count the same, and their results agree. -/
theorem surfaces_agree (p : Portal) (path : String) (request : Documents.Request)
    {q : Graphql.Query} (hq : q.Names path request) (s : Scene) :
    (∀ r : Http.Request, r.Names path request →
      p.fileHandler r request = p.answerFile path request) ∧
      (exec (p.answerFile path request) s).2 =
        (exec (Graphql.fileResolver request p.collaborators q) s).2 ∧
      Documents.Agree request (exec (p.answerFile path request) s).1
        (exec (Graphql.fileResolver request p.collaborators q) s).1 := by
  refine ⟨fun r hr => fileHandler_eq hr, ?_, ?_⟩
  · rw [exec_answerFile, exec_fileResolver hq]
  · rw [exec_answerFile, exec_fileResolver hq]
    cases (exec (p.perform path request) s).1 with
    | error stop => exact .stopped stop
    | ok reply => exact .done (alike_shown request reply)

end Surfaces

/-! ## A rehearsal -/

/-- Someone who signed in with a password asks for a file operation. -/
def Rehearsal.signedIn : Scene where
  ledger := .empty
  session := .login (ids 1) staff.principal (some staff.password)
    (.fresh (ids 0) (.ofMillis 3600000))
  drawn := 2

/-- The arguments with which this person asks for it. -/
def Rehearsal.fileArguments (content : List UInt8) : Graphql.Query :=
  .onFile Rehearsal.signedIn.session.principal "/docs/a" content

/-- Three bytes are stored on both surfaces of the rehearsal portal. -/
theorem surfaces_agree_rehearsal :
    (Rehearsal.fileArguments [1, 2, 3]).Names "/docs/a" (.putFile [1, 2, 3]) ∧
      Rehearsal.portal.fileHandler (Http.Request.onFile "/docs/a" [1, 2, 3]) (.putFile [1, 2, 3]) =
        Rehearsal.portal.answerFile "/docs/a" (.putFile [1, 2, 3]) ∧
      Documents.Agree (.putFile [1, 2, 3])
        (exec (Rehearsal.portal.answerFile "/docs/a" (.putFile [1, 2, 3])) Rehearsal.signedIn).1
        (exec (Graphql.fileResolver (.putFile [1, 2, 3]) Rehearsal.portal.collaborators
          (Rehearsal.fileArguments [1, 2, 3])) Rehearsal.signedIn).1 := by
  have hq : (Rehearsal.fileArguments [1, 2, 3]).Names "/docs/a" (.putFile [1, 2, 3]) :=
    Graphql.Query.names_onFile _ fun _ h => by cases h; rfl
  have hr : (Http.Request.onFile "/docs/a" [1, 2, 3]).Names "/docs/a" (.putFile [1, 2, 3]) :=
    Http.Request.names_onFile fun _ h => by cases h; exact ⟨rfl, by decide⟩
  have hagree :=
    surfaces_agree Rehearsal.portal "/docs/a" (.putFile [1, 2, 3]) hq Rehearsal.signedIn
  exact ⟨hq, hagree.1 _ hr, hagree.2.2⟩

/-- An address is shown in an object by a response and alone by a root field. -/
theorem fileUrl_values_differ :
    ¬ ∀ (p : Portal) (path : String) (request : Documents.Request) (r : Http.Request)
        (q : Graphql.Query) (s : Scene) (response : Response) (value : Json),
      Session.Guard.authenticated.check (some s.session) = .ok s.session.principal →
      r.Names path request → q.Names path request → request ≠ .getFile →
      (exec (p.fileHandler r request) s).1 = .ok response →
      (exec (Graphql.fileResolver request p.collaborators q) s).1 = .ok value →
      ∃ status, response = .json status value := by
  intro h
  have hr : (Http.Request.onFile "/docs/a" []).Names "/docs/a" .fileUrl :=
    Http.Request.names_onFile fun _ h => nomatch h
  have hq : (Rehearsal.fileArguments []).Names "/docs/a" .fileUrl :=
    Graphql.Query.names_onFile _ fun _ h => nomatch h
  have hresponse : (exec (Rehearsal.portal.fileHandler (.onFile "/docs/a" []) .fileUrl)
      Rehearsal.signedIn).1 =
        .ok (.json 200 (.obj [("url", .str "https://docs.example.test/share/docs/a")])) := by
    rw [fileHandler_eq hr]
    rfl
  have hvalue : (exec (Graphql.fileResolver .fileUrl Rehearsal.portal.collaborators
      (Rehearsal.fileArguments [])) Rehearsal.signedIn).1 =
        .ok (.str "https://docs.example.test/share/docs/a") := rfl
  obtain ⟨status, heq⟩ := h Rehearsal.portal "/docs/a" .fileUrl (.onFile "/docs/a" [])
    (Rehearsal.fileArguments []) Rehearsal.signedIn _ _ rfl hr hq (by decide) hresponse hvalue
  have hbody : Utf8.encode (Json.obj
        [("url", .str "https://docs.example.test/share/docs/a")]).text =
      Utf8.encode (Json.str "https://docs.example.test/share/docs/a").text :=
    congrArg Response.body heq
  exact absurd hbody (by decide +kernel)

end Intranet
