import Intranet.Number.Bounded
import Intranet.Settings.Basic
import Intranet.Text.Blank

/-!
# Checking settings

What settings have to fulfil before the portal starts, and what is worked out from them: the
address of the session store and the endpoints of the read replicas.
-/

namespace Intranet.Settings

/-- Why settings are refused. -/
inductive Unfit where
  | serverPort
  | loginPath
  | secret
  | cookieName
  | cookieTtl
  | maxConnections
  | replica (entry : String) (reason : Decimal.Misread)
  | filesTimeout
  | microserviceTimeout
  deriving DecidableEq, Repr

/-- The text for a refusal. -/
def Unfit.message : Unfit → String
  | serverPort => "invalid server.port: 0"
  | loginPath => "server.login_path must start with '/'"
  | secret => "session.secret must not be empty"
  | cookieName => "session.cookie_name must not be empty"
  | cookieTtl => "session.cookie_ttl_secs must be > 0"
  | maxConnections => "database.max_connections must be > 0"
  | replica entry reason => "invalid database replica '" ++ entry ++ "': " ++ reason.message
  | filesTimeout => "files.timeout_secs must be > 0"
  | microserviceTimeout => "microservice.timeout_secs must be > 0"

/-! ## Endpoints -/

/-- A host and a port. -/
structure Endpoint where
  host : String
  port : UInt16
  deriving DecidableEq, Repr

/-- What stands before and after the last colon. -/
def splitAtLastColon? (cs : List Char) : Option (List Char × List Char) :=
  match cs.reverse.span (· ≠ ':') with
  | (_, []) => none
  | (after, _ :: before) => some (before.reverse, after.reverse)

/-- The endpoint of an entry without blanks at its ends. Without a colon the port of the database
holds. -/
def endpoint (defaultPort : UInt16) (entry : List Char) : Except Unfit Endpoint :=
  match splitAtLastColon? entry with
  | none => .ok ⟨String.ofList entry, defaultPort⟩
  | some (host, port) =>
    match Decimal.bounded 65535 port with
    | .ok n => .ok ⟨String.ofList host, UInt16.ofNat n⟩
    | .error e => .error (.replica (String.ofList entry) e)

/-- The endpoints of the read replicas. Blank entries are passed over. -/
def Database.replicaEndpoints (d : Database) : Except Unfit (List Endpoint) :=
  ((d.replicas.map fun r => Text.trimL r.toList).filter (!·.isEmpty)).mapM (endpoint d.port)

/-! ## The session store -/

/-- The address of the session store: the one that is given, unless it is blank, or one made of its
parts. -/
def Sessions.redisUrl (s : Sessions) : String :=
  let given := (s.redisUri.map Text.trim).getD ""
  if given.isEmpty then
    "redis://" ++ s.redisHost ++ ":" ++ toString s.redisPort.toNat ++ "/" ++
      toString s.redisDb.toNat
  else given

/-! ## The check -/

/-- Refuses when a condition holds. -/
def refuseIf (condition : Bool) (reason : Unfit) : Except Unfit Unit :=
  if condition then .error reason else .ok ()

/-- Refuses settings with which the portal could not work. The first reason counts. -/
def check (s : Settings) : Except Unfit Unit := do
  refuseIf (s.server.port = 0) .serverPort
  refuseIf (s.server.loginPath.toList.head? ≠ some '/') .loginPath
  refuseIf s.session.secret.isEmpty .secret
  refuseIf (Text.isBlankText s.session.cookieName) .cookieName
  refuseIf (s.session.cookieTtlSecs = 0) .cookieTtl
  refuseIf (s.database.maxConnections = 0) .maxConnections
  discard s.database.replicaEndpoints
  refuseIf (s.files.timeoutSecs = 0) .filesTimeout
  refuseIf (s.microservice.timeoutSecs = 0) .microserviceTimeout

end Intranet.Settings
