import Intranet.Portal.Serve
import Intranet.Session.Memory

/-!
# Rehearsals

Collaborators to try the portal out with, when no document service, no database and no sync service
are at hand: a shelf that remembers the files put on it, a list of people with their passwords, and
a sync service that reports at once. Each can be told to fail. With them a portal can be put
together.
-/

namespace Intranet.Rehearsal

/-! ## Documents -/

/-- What stands on a shelf besides the files that are put on it. -/
structure Shelf where
  /-- The paths for which every call fails. -/
  failures : List (String × Stop)
  /-- The entries of folders. Any other folder has one report in it. -/
  folders : List (String × List Documents.Entry)

/-- The part of a path after its last slash. -/
def baseName (path : String) : String :=
  String.ofList (path.toList.reverse.takeWhile (· ≠ '/')).reverse

/-- The report that stands in a folder. -/
def report (folder : String) : Documents.Entry :=
  let folder := String.ofList (folder.toList.reverse.dropWhile (· = '/')).reverse
  ⟨"report.pdf", folder ++ "/report.pdf", false, 42, none⟩

/-- The content of the file that was last put under a path. -/
def lastContent? (path : String) (calls : List Documents.Call) : Option (List UInt8) :=
  calls.reverse.findSome? fun
    | ⟨.putFile content, _, p⟩ => if p = path then some content else none
    | _ => none

/-- The shelf as a document backend. -/
def Shelf.backend (shelf : Shelf) : Documents.Backend := fun earlier call =>
  match shelf.failures.lookup call.path with
  | some stop => .error stop
  | none =>
    match call with
    | ⟨.listFolder, _, path⟩ => .ok ((shelf.folders.lookup path).getD [report path])
    | ⟨.putFile content, _, path⟩ =>
      .ok ⟨baseName path, path, false, .ofNat content.length, none⟩
    | ⟨.getFile, _, path⟩ =>
      match lastContent? path earlier with
      | some content => .ok content
      | none => .error (.failed (.relayed 404 ("No such file: " ++ path)))
    | ⟨.fileUrl, _, path⟩ => .ok ("https://docs.example.test/share" ++ path)

/-! ## People -/

/-- A person of the directory. -/
structure Person where
  principal : Principal
  password : String
  hasProfile : Bool
  /-- What every question about the person fails with. -/
  fails : Option Stop
  deriving Inhabited

/-- The profile of a person. -/
def Person.profile (p : Person) : Profile where
  id := p.principal.id
  login := p.principal.login
  displayName := p.principal.displayName
  email := some (p.principal.login ++ "@example.test")
  department := some "IT"
  title := none
  gender := none
  phone := none
  isAdmin := p.principal.isAdmin
  syncedAt := none

/-- The person with a login. -/
def person? (people : List Person) (login : String) : Except Stop (Option Person) :=
  match people.find? fun p => p.principal.login = login with
  | none => .ok none
  | some p =>
    match p.fails with
    | some stop => .error stop
    | none => .ok (some p)

/-- A list of people as a directory. -/
def directory (people : List Person) : Directory := fun _ call =>
  match call with
  | .authenticate login password =>
    (person? people login).map fun p =>
      (p.filter fun p => p.password = password).map Person.principal
  | .profile login =>
    (person? people login).map fun p => (p.filter Person.hasProfile).map Person.profile

/-- A person whose name shows that this is a rehearsal. -/
def stockPerson (number : Nat) (login password : String) (isAdmin : Bool) : Person where
  principal :=
    ⟨⟨BitVec.ofNat 128 (0x40008000000000000000 + number)⟩, login, login ++ " (test)", isAdmin⟩
  password := password
  hasProfile := true
  fails := none

/-- Someone without special rights. -/
def staff : Person := stockPerson 1 "jdoe" "secret" false

/-- The people of a rehearsal for which none are named. -/
def stockPeople : List Person := [staff, stockPerson 2 "admin" "admin-pass" true]

/-! ## Sync -/

/-- The report of a sync service that nothing else is asked of. -/
def syncReport (login : String) : Json := .mk [("users", .nat 3), ("requestedBy", .str login)]

/-- A sync service with a fixed answer, or with its usual report. -/
def syncService (answer : Option (Except Stop Json)) : SyncService := fun _ login =>
  answer.getD (.ok (syncReport login))

/-! ## A portal -/

/-- Identifiers that are numbers, in 32 digits as long as they fit. -/
def ids (n : Nat) : Session.Id := ⟨Hex.ofNat 32 n⟩

/-- A portal whose sessions last an hour. -/
def portal : Portal where
  keeper := ⟨.ofSecret "rehearsal", "portal_session", 3600, ids⟩
  loginPath := "/auth/login"
  collaborators := ⟨directory stockPeople, Shelf.backend ⟨[], []⟩, syncService none⟩
  registry := Graphql.portalRegistry
  readiness := .ready
  build := ⟨"debug", "linux", "x86_64"⟩

/-! ## Requests -/

/-- The request with which one of the stock people signs in. -/
def signIn : Http.Request where
  method := "POST"
  path := "/auth/login"
  query := none
  headers := [("content-type", "application/json")]
  body := Utf8.encode "\x7b\"login\": \"jdoe\", \"password\": \"secret\"\x7d"
  reference := ""
  uptime := 0

/-- The request for a folder by someone who is not signed in. -/
def strangerListsFolder : Http.Request where
  method := "GET"
  path := "/api/files"
  query := some "path=/reports"
  headers := []
  body := []
  reference := ""
  uptime := 0

/-- The question who is asking, under an alias. -/
def asksSelf : Http.Request where
  method := "POST"
  path := "/graphql"
  query := none
  headers := [("content-type", "application/json")]
  body := Utf8.encode "\x7b\"query\": \"\x7b self: me \x7d\"\x7d"
  reference := ""
  uptime := 0

/-! ## A session -/

/-- The session that is started for a stranger. -/
def strangerSession : Session.Handle := .fresh (ids 0) (.ofMillis 3600000)

/-- The world in which the first stranger is handled. -/
def strangerWorld : Session.World Session.Memory :=
  { Session.World.start Session.Memory.empty 0 with drawn := 1 }

/-- The record of a session in which someone is signed in. It ends an hour after the clock
started. -/
def record : Session.Record where
  id := ids 1
  principal := some staff.principal
  credential := some staff.password
  claims := [(Session.adminClaim, .bool staff.principal.isAdmin)]
  expiresAt := .ofMillis 3600000

/-- The world in which this session is kept in memory. -/
def world : Session.World Session.Memory := .start ⟨[(record.id, ⟨record, 3600000⟩)]⟩ 0

/-- A request with the cookie of this session. -/
def returning (r : Http.Request) : Http.Request :=
  { r with
    headers := r.headers ++
      [("cookie", portal.keeper.cookieName ++ "=" ++ portal.keeper.signer.sign record.id)] }

end Intranet.Rehearsal
