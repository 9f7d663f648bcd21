import Intranet.Number.Bounded
import Intranet.Number.Shortest
import Intranet.Settings.Basic
import Intranet.Settings.Value
import Intranet.Text.Letter

/-!
# Settings from configured values

How each setting is read from the value that sources give for it, and the values that stand for
given settings. Numbers may come as texts and texts as numbers; a value that cannot be converted
makes the whole reading fail.
-/

namespace Intranet.Settings

namespace Value

/-- The truth value of a word in any case. -/
def truthOfWord? (s : String) : Option Bool :=
  let word := Text.lower s
  if word ∈ ["true", "on", "yes"] then some true
  else if word ∈ ["false", "off", "no"] then some false
  else none

/-- A natural number up to a bound. -/
def natural? (bound : Nat) : Value → Option Nat
  | .int n => if 0 ≤ n ∧ n ≤ bound then some n.toNat else none
  | .bool b => some b.toNat
  | .float d => (some (d.toNatClamped (Nat.pow 2 64 - 1))).filter (· ≤ bound)
  | .str s =>
    match truthOfWord? s with
    | some b => some b.toNat
    | none => (Decimal.bounded bound s.toList).toOption
  | _ => none

/-- A truth value. -/
def truth? : Value → Option Bool
  | .bool b => some b
  | .int n => some (n ≠ 0)
  | .float d => some !d.isZero
  | .str s => if s = "1" then some true else if s = "0" then some false else truthOfWord? s
  | _ => none

/-- A text. -/
def text? : Value → Option String
  | .str s => some s
  | .bool b => some (if b then "true" else "false")
  | .int n => some (toString n)
  | .float d => some d.plainText
  | _ => none

/-- A text that may be absent. -/
def optionalText? : Value → Option (Option String)
  | .nothing => some none
  | v => v.text?.map some

/-- A list of texts. -/
def texts? : Value → Option (List String)
  | .list items => items.mapM text?
  | _ => none

/-- A port. -/
def port? (v : Value) : Option UInt16 := (v.natural? (Nat.pow 2 16 - 1)).map UInt16.ofNat

/-- A count of 32 bits. -/
def count? (v : Value) : Option UInt32 := (v.natural? (Nat.pow 2 32 - 1)).map UInt32.ofNat

/-- A count of 64 bits. -/
def longCount? (v : Value) : Option UInt64 := (v.natural? (Nat.pow 2 64 - 1)).map UInt64.ofNat

/-- The fields of a section with the given names: those of a table, or the items of a list in the
order of the names. -/
def section? (names : List String) : Value → Option Table
  | .table fields => some fields
  | .list items => if names.length ≤ items.length then some (names.zip items) else none
  | _ => none

end Value

namespace Table

/-- What a field is read as. A field that is missing makes the reading fail. -/
def require {α : Type} (fields : Table) (key : String) (read : Value → Option α) : Option α :=
  (fields.get? key).bind read

/-- A text that may be absent, or whose field may be missing. -/
def optionalText (fields : Table) (key : String) : Option (Option String) :=
  match fields.get? key with
  | none => some none
  | some v => v.optionalText?

end Table

/-! ## Sections -/

/-- Reads the section on listening. -/
def Server.ofValue? (v : Value) : Option Server := do
  let fields ← v.section? ["host", "port", "login_path"]
  return { host := ← fields.require "host" Value.text?
           port := ← fields.require "port" Value.port?
           loginPath := ← fields.require "login_path" Value.text? }

/-- Reads the section on the journal. -/
def Logging.ofValue? (v : Value) : Option Logging := do
  let fields ← v.section? ["level", "server", "dir", "file"]
  return { level := ← fields.require "level" Value.text?
           server := ← fields.optionalText "server"
           dir := ← fields.require "dir" Value.text?
           file := ← fields.require "file" Value.text? }

/-- Reads the section on sessions. -/
def Sessions.ofValue? (v : Value) : Option Sessions := do
  let fields ← v.section?
    ["redis_uri", "redis_host", "redis_port", "redis_db", "secret", "cookie_name",
      "cookie_ttl_secs"]
  return { redisUri := ← fields.optionalText "redis_uri"
           redisHost := ← fields.require "redis_host" Value.text?
           redisPort := ← fields.require "redis_port" Value.port?
           redisDb := ← fields.require "redis_db" Value.count?
           secret := ← fields.require "secret" Value.text?
           cookieName := ← fields.require "cookie_name" Value.text?
           cookieTtlSecs := ← fields.require "cookie_ttl_secs" Value.longCount? }

/-- Reads the section on the database. -/
def Database.ofValue? (v : Value) : Option Database := do
  let fields ← v.section?
    ["host", "port", "username", "password", "database", "schema", "replicas", "max_connections",
      "logging", "slow_query_threshold_ms"]
  return { host := ← fields.require "host" Value.text?
           port := ← fields.require "port" Value.port?
           username := ← fields.require "username" Value.text?
           password := ← fields.require "password" Value.text?
           database := ← fields.require "database" Value.text?
           schema := ← fields.require "schema" Value.text?
           replicas := ← fields.require "replicas" Value.texts?
           maxConnections := ← fields.require "max_connections" Value.count?
           logging := ← fields.require "logging" Value.truth?
           slowQueryThresholdMs := ← fields.require "slow_query_threshold_ms" Value.longCount? }

/-- Reads the section on the document backend. -/
def Files.ofValue? (v : Value) : Option Files := do
  let fields ← v.section? ["url", "timeout_secs"]
  return { url := ← fields.require "url" Value.text?
           timeoutSecs := ← fields.require "timeout_secs" Value.longCount? }

/-- Reads the section on the sync service. -/
def Microservice.ofValue? (v : Value) : Option Microservice := do
  let fields ← v.section? ["url", "sync_pattern", "timeout_secs"]
  return { url := ← fields.require "url" Value.text?
           syncPattern := ← fields.require "sync_pattern" Value.text?
           timeoutSecs := ← fields.require "timeout_secs" Value.longCount? }

/-- Reads all settings. Names that no section has are passed over. -/
def ofValue? (v : Value) : Option Settings := do
  let sections := v.fields
  return { server := ← sections.require "server" Server.ofValue?
           log := ← sections.require "log" Logging.ofValue?
           session := ← sections.require "session" Sessions.ofValue?
           database := ← sections.require "database" Database.ofValue?
           files := ← sections.require "files" Files.ofValue?
           microservice := ← sections.require "microservice" Microservice.ofValue? }

/-! ## Values of settings -/

/-- The field of a text that may be absent. -/
def optionalField (key : String) : Option String → Table
  | none => []
  | some s => [(key, .str s)]

/-- The sections and values that stand for settings. -/
def toTable (s : Settings) : Table :=
  [("server", .table [
      ("host", .str s.server.host), ("port", .int s.server.port.toNat),
      ("login_path", .str s.server.loginPath)]),
    ("log", .table (("level", .str s.log.level) :: optionalField "server" s.log.server ++
      [("dir", .str s.log.dir), ("file", .str s.log.file)])),
    ("session", .table (optionalField "redis_uri" s.session.redisUri ++ [
      ("redis_host", .str s.session.redisHost), ("redis_port", .int s.session.redisPort.toNat),
      ("redis_db", .int s.session.redisDb.toNat), ("secret", .str s.session.secret),
      ("cookie_name", .str s.session.cookieName),
      ("cookie_ttl_secs", .int s.session.cookieTtlSecs.toNat)])),
    ("database", .table [
      ("host", .str s.database.host), ("port", .int s.database.port.toNat),
      ("username", .str s.database.username), ("password", .str s.database.password),
      ("database", .str s.database.database), ("schema", .str s.database.schema),
      ("replicas", .list (s.database.replicas.map .str)),
      ("max_connections", .int s.database.maxConnections.toNat),
      ("logging", .bool s.database.logging),
      ("slow_query_threshold_ms", .int s.database.slowQueryThresholdMs.toNat)]),
    ("files", .table [
      ("url", .str s.files.url), ("timeout_secs", .int s.files.timeoutSecs.toNat)]),
    ("microservice", .table [
      ("url", .str s.microservice.url), ("sync_pattern", .str s.microservice.syncPattern),
      ("timeout_secs", .int s.microservice.timeoutSecs.toNat)])]

end Intranet.Settings
