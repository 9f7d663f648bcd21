/-!
# Settings

All that can be configured, by section, and the values that hold when nothing is.
-/

namespace Intranet.Settings

/-- Where the portal listens and where it sends those who are not signed in. -/
structure Server where
  host : String
  port : UInt16
  loginPath : String
  deriving DecidableEq, Repr

/-- What the journal takes and where it goes. -/
structure Logging where
  level : String
  server : Option String
  dir : String
  file : String
  deriving DecidableEq, Repr

/-- Where sessions are kept and how their cookies look. -/
structure Sessions where
  redisUri : Option String
  redisHost : String
  redisPort : UInt16
  redisDb : UInt32
  secret : String
  cookieName : String
  cookieTtlSecs : UInt64
  deriving DecidableEq, Repr

/-- How the database is reached. -/
structure Database where
  host : String
  port : UInt16
  username : String
  password : String
  database : String
  schema : String
  replicas : List String
  maxConnections : UInt32
  logging : Bool
  slowQueryThresholdMs : UInt64
  deriving DecidableEq, Repr

/-- How the document backend is reached. -/
structure Files where
  url : String
  timeoutSecs : UInt64
  deriving DecidableEq, Repr

/-- How the sync service is reached. -/
structure Microservice where
  url : String
  syncPattern : String
  timeoutSecs : UInt64
  deriving DecidableEq, Repr

end Intranet.Settings

namespace Intranet

/-- All settings. -/
structure Settings where
  server : Settings.Server
  log : Settings.Logging
  session : Settings.Sessions
  database : Settings.Database
  files : Settings.Files
  microservice : Settings.Microservice
  deriving DecidableEq, Repr

namespace Settings

/-- The settings that hold when nothing is configured. -/
def default : Settings where
  server := ⟨"127.0.0.1", 4000, "/auth/login"⟩
  log := ⟨"info", none, "logs", "portal.log"⟩
  session := ⟨none, "127.0.0.1", 6379, 0, "portal-development-secret", "portal", 28800⟩
  database := ⟨"127.0.0.1", 5432, "portal", "", "portal", "public", [], 10, false, 1000⟩
  files := ⟨"http://127.0.0.1:8080", 30⟩
  microservice := ⟨"redis://127.0.0.1:6379", "ldap_sync", 60⟩

instance : Inhabited Settings := ⟨default⟩

end Settings

end Intranet
