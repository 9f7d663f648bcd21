import Intranet.Graphql.Endpoint
import Intranet.Http.Form
import Intranet.Portal.Pages

/-!
# Handlers

What each route of the portal does once its guard has let the request pass.
-/

namespace Intranet

/-- Whether the database answers. -/
inductive Readiness where
  | ready
  | failed (reason : String)
  /-- It did not answer in time. -/
  | silent
  deriving DecidableEq, Repr

/-- How the portal was built. -/
structure Build where
  profile : String
  os : String
  arch : String
  deriving DecidableEq, Repr

/-- A portal: its settings, what it calls for, and its GraphQL fields. -/
structure Portal where
  keeper : Session.Keeper
  loginPath : String
  collaborators : Collaborators
  registry : Graphql.Registry
  readiness : Readiness
  build : Build

namespace Portal

open Http (Request Response)

/-! ## Health -/

/-- Says that the portal runs. -/
def health : Handling Response := return .text 200 "ok"

/-- Says whether the database can be used. -/
def ready (p : Portal) : Handling Response := do
  match p.readiness with
  | .ready => return .text 200 "ready"
  | .failed reason =>
    Handling.onLedger (Task.write .warn ("Readiness check failed: " ++ reason))
    return .text 503 "not ready: database unavailable"
  | .silent => return .text 503 "not ready: timeout"

/-- Says which version runs. -/
def version (p : Portal) : Handling Response :=
  return .json 200 (.obj [("build", .obj [("arch", .str p.build.arch), ("os", .str p.build.os),
      ("profile", .str p.build.profile)]),
    ("name", .str "portal"),
    ("package", .obj [("description", .str ("Axum backend for the corporate intranet portal: " ++
      "sessions, auth guard, error filter and document gateway.")),
      ("license", .str "GPL-3.0-or-later")]),
    ("version", .str "0.1.0")])

/-- The counters as JSON. -/
def metrics (r : Request) : Handling Response :=
  return .json 200 ((← get).ledger.counters.json r.uptime)

/-- The counters in the text exposition format. -/
def exposition (r : Request) : Handling Response :=
  return .ofBytes 200 "text/plain; version=0.0.4"
    (Utf8.encode ((← get).ledger.counters.exposition r.uptime))

/-! ## Signing in and out -/

/-- What a person signs in with. -/
structure Credentials where
  login : String
  password : String

namespace Credentials

/-- Credentials whose fields are being read. -/
structure Draft where
  login : Option String
  password : Option String

/-- The fields of credentials, all of them required. -/
def fields : List (Json.Decoder.Field Draft) :=
  [.slot "login" .text (fun v d => { d with login := v }) Draft.login true false,
    .slot "password" .text (fun v d => { d with password := v }) Draft.password true false]

/-- The credentials of a finished draft. -/
def Draft.finish (d : Draft) : Credentials := ⟨d.login.getD "", d.password.getD ""⟩

/-- Reads credentials. -/
def decoder : Json.Decoder Credentials := .record "LoginRequest" fields ⟨none, none⟩ Draft.finish

end Credentials

/-- Asks the directory. -/
def ask (p : Portal) (call : DirectoryCall) : Task Ledger call.Reply := do
  let earlier := (← get).directoryCalls
  modify (Ledger.addDirectoryCall call)
  Task.ofExcept (p.collaborators.directory earlier call)

/-- Signs a principal in. The password is kept as the credential for the document backend. -/
def establish (p : Portal) (principal : Principal) (password : String) : Handling Unit :=
  modify fun scene =>
    { scene with
      session := scene.session.login (p.keeper.ids scene.drawn) principal (some password)
      drawn := scene.drawn + 1 }

/-- Signs a person in whose login and password the directory knows. -/
def signIn (p : Portal) (c : Credentials) : Handling Response := do
  Task.check (checkRequired c.login "login")
  Task.check (checkRequired c.password "password")
  let login := Text.trim c.login
  match ← Handling.onLedger (p.ask (.authenticate login c.password)) with
  | some principal =>
    Handling.onLedger (Task.count .countLoginSucceeded)
    Handling.onLedger (Task.write .info ("User " ++ principal.login ++ " signed in"))
    p.establish principal c.password
    let session ← Handling.session
    match session.principal with
    | some principal => return .json 200 (principal.view session.isAdmin)
    | none => Task.fail (.internal ⟨"principal missing after login", []⟩)
  | none =>
    Handling.onLedger (Task.count .countLoginFailed)
    Handling.onLedger (Task.write .warn ("Rejected sign-in for " ++ login))
    Task.fail (.unauthorized "Invalid login or password")

/-- Signs the person in whose credentials the body holds. -/
def login (p : Portal) (r : Request) : Handling Response :=
  match r.json Credentials.decoder with
  | .error rejection => return rejection.response
  | .ok c => p.signIn c

/-- Ends the session. -/
def logout : Handling Response := do
  if let some principal := (← Handling.session).principal then
    Handling.onLedger (Task.write .info ("User " ++ principal.login ++ " signed out"))
  Handling.changeSession Session.Handle.destroy
  return .empty 204

/-! ## The signed-in person -/

/-- Who is signed in. -/
def me : Handling Response := do
  let session ← Handling.session
  let principal ← Task.check (Session.currentUser (some session))
  return .json 200 (principal.view session.isAdmin)

/-- What the directory knows about the person who is signed in. -/
def profile (p : Portal) : Handling Response := do
  let principal ← Task.check (Session.currentUser (some (← Handling.session)))
  let found ← Handling.onLedger (p.ask (.profile principal.login))
  let profile ← Task.check (orNotFound "Profile" found)
  return .json 200 profile.json

/-! ## Files -/

/-- The path that a query names; a missing one is empty. -/
def queryPath (r : Request) : Except Response String :=
  match Http.Form.single "path" (Http.Form.decode (r.query.getD "")) with
  | .ok path => .ok (path.getD "")
  | .error reason => .error (.text 400 ("Failed to deserialize query string: " ++ reason))

/-- A file operation of the person who is signed in. -/
def perform (p : Portal) (path : String) (request : Documents.Request) :
    Handling request.Reply := do
  let caller ← Handling.caller
  Handling.onLedger (Documents.perform p.collaborators.documents caller path request)

/-- The entries of a folder. -/
def listFolder (p : Portal) (r : Request) : Handling Response :=
  match queryPath r with
  | .error refusal => return refusal
  | .ok path => return .json 200 (.arr ((← p.perform path .listFolder).map Documents.Entry.json))

/-- Stores a file. -/
def putFile (p : Portal) (r : Request) : Handling Response :=
  match queryPath r with
  | .error refusal => return refusal
  | .ok path =>
    match r.bytes with
    | .error refusal => return refusal
    | .ok content => return .json 201 (← p.perform path (.putFile content)).json

/-- The content of a file. -/
def getFile (p : Portal) (r : Request) : Handling Response :=
  match queryPath r with
  | .error refusal => return refusal
  | .ok path => return .ofBytes 200 "application/octet-stream" (← p.perform path .getFile)

/-- An address under which a file can be shared. -/
def fileUrl (p : Portal) (r : Request) : Handling Response :=
  match queryPath r with
  | .error refusal => return refusal
  | .ok path => return .json 200 (.obj [("url", .str (← p.perform path .fileUrl))])

/-! ## Administration -/

/-- Triggers the sync service. -/
def triggerSync (p : Portal) (login : String) : Task Ledger Json := do
  Task.count .countSyncTriggered
  let earlier := (← get).syncCalls
  modify (Ledger.addSyncCall login)
  Task.ofExcept (p.collaborators.sync earlier login)

/-- Runs the directory sync and waits for its report. -/
def sync (p : Portal) : Handling Response := do
  let admin ← Task.check (Session.adminUser (some (← Handling.session)))
  let report ← Handling.onLedger (p.triggerSync admin.login)
  return .json 200 (.obj [("requestedBy", .str admin.login), ("result", report)])

end Portal

end Intranet
