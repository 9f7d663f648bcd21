import Intranet.Portal.Handlers

/-!
# Routes

Each path of the portal has a guard and handlers for some methods. A guard stands in front of all
methods of its path, also of those that have no handler.
-/

namespace Intranet

/-- A path of the portal. -/
inductive Route where
  | health
  | ready
  | version
  | metrics
  | exposition
  | login
  | logout
  | graphql
  | me
  | profile
  | files
  | fileContent
  | fileUrl
  | sync
  deriving DecidableEq, Repr

namespace Route

/-- The route of a path. -/
def ofPath? (path : String) : Option Route :=
  match path with
  | "/healthz" => some health
  | "/readyz" => some ready
  | "/version" => some version
  | "/metrics" => some metrics
  | "/metrics/prometheus" => some exposition
  | "/auth/login" => some login
  | "/auth/logout" => some logout
  | "/graphql" => some graphql
  | "/api/me" => some me
  | "/api/profile" => some profile
  | "/api/files" => some files
  | "/api/files/content" => some fileContent
  | "/api/files/url" => some fileUrl
  | "/admin/ldap/sync" => some sync
  | _ => none

/-- The methods of a route. What can be got can also be asked for its headers alone. -/
def methods : Route → List String
  | login => ["GET", "HEAD", "POST"]
  | logout | graphql | sync => ["POST"]
  | files => ["GET", "HEAD", "PUT"]
  | _ => ["GET", "HEAD"]

/-- The guard of a route. -/
def guard : Route → Session.Guard
  | me | profile | files | fileContent | fileUrl => .authenticated
  | sync => .admin
  | _ => .everyone

end Route

namespace Portal

open Http (Request Response)

/-- What a route does for a method. -/
def handler? (p : Portal) (r : Request) (route : Route) : Option (Handling Response) :=
  if r.method ∉ route.methods then none
  else
    some <| match route with
    | .health => health
    | .ready => p.ready
    | .version => p.version
    | .metrics => metrics r
    | .exposition => exposition r
    | .login => if r.method = "POST" then p.login r else return .html 200 loginPage
    | .logout => logout
    | .graphql => Graphql.respond p.collaborators p.registry r
    | .me => me
    | .profile => p.profile
    | .files => if r.method = "PUT" then p.putFile r else p.listFolder r
    | .fileContent => p.getFile r
    | .fileUrl => p.fileUrl r
    | .sync => p.sync

/-- Lets a request pass the guard of a route; a denial is counted and written down. -/
def pass (guard : Session.Guard) (r : Request) : Handling Unit := do
  match guard.check (some (← Handling.session)) with
  | .ok _ => pure ()
  | .error denial =>
    Handling.onLedger (Task.count .countAuthDenied)
    Handling.onLedger
      (Task.write .debug (guard.name ++ " guard denied " ++ r.method ++ " " ++ r.path))
    Task.fail denial

/-- Handles a request. -/
def handle (p : Portal) (r : Request) : Handling Response := do
  match Route.ofPath? r.path with
  | none => return .empty 404
  | some route =>
    pass route.guard r
    (p.handler? r route).getD (return .empty 405)

/-- The methods that a response has to name: those of a route that has no handler for the method of
the request. -/
def allowed? (r : Request) : Option String := do
  let route ← Route.ofPath? r.path
  if r.method ∈ route.methods then none else some (String.intercalate "," route.methods)

end Portal

end Intranet
