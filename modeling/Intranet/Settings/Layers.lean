import Intranet.Settings.Check
import Intranet.Settings.Convert
import Intranet.Settings.Dotenv
import Intranet.Settings.Toml.Document

/-!
# Layers of settings

Where settings come from. Each layer is written over the ones before it: the values that hold when
nothing is configured, the file `portal.toml`, the file that `PORTAL_CONFIG` names, the variables
`PORTAL__SECTION__KEY`, and last the variables that have names of their own. Variables of a file
`.env` count as variables, unless there are some of the same name.
-/

namespace Intranet.Settings

/-- What settings are read from: the variables of the process, and the files of its directory by
name. -/
structure Surroundings where
  environment : Variables
  files : List (String × String)

/-- Why there are no settings. -/
inductive LoadFailure where
  /-- A file cannot be read, or a value is not what its setting needs. -/
  | unreadable
  /-- The settings do not fit together. -/
  | unfit (reason : Unfit)
  deriving DecidableEq, Repr

/-! ## Files -/

/-- The name of a file below the directory, without its steps to the directory itself. Nothing for
a name that starts at the root or does not end in a name. -/
def fileName? (name : String) : Option String :=
  let parts := (name.toList.splitOn '/').filter (· ≠ ['.'])
  match parts.getLast? with
  | some last =>
    if name.toList.head? = some '/' ∨ last = [] ∨ last = ['.', '.'] then none
    else some (String.ofList (['/'].intercalate (parts.filter (· ≠ []))))
  | none => none

/-- Whether a file name has the extension of TOML files. -/
def isToml (name : String) : Bool :=
  match (((name.toList.splitOn '/').getLast?.getD []).reverse.span (· ≠ '.')) with
  | (extension, _ :: stem) => extension.reverse = ['t', 'o', 'm', 'l'] && !stem.isEmpty
  | _ => false

/-- The text of a configuration file, given its name with or without the extension. A file of
exactly that name goes first; it is empty to the reader unless it has the extension, and so is a
file that is missing. -/
def configText (files : List (String × String)) (name : String) : String :=
  match fileName? name with
  | none => ""
  | some name =>
    match files.find? (·.1 = name) with
    | some (_, text) => if isToml name then text else ""
    | none => ((files.find? (·.1 = name ++ ".toml")).map (·.2)).getD ""

/-- The layer of a configuration file. -/
def fileLayer (files : List (String × String)) (name : String) : Except LoadFailure Table :=
  match Toml.parse? (configText files name) with
  | some table => .ok table
  | none => .error .unreadable

/-! ## Variables -/

/-- A text with every two underscores replaced by a point. -/
def pointsForUnderscores : List Char → List Char
  | '_' :: '_' :: rest => '.' :: pointsForUnderscores rest
  | c :: rest => c :: pointsForUnderscores rest
  | [] => []

/-- What the names of variables for settings begin with, in small letters. -/
def prefixedStart : List Char := "portal__".toList

/-- The key that a variable sets, by its name in any case. -/
def keyOfVariable? (name : String) : Option String :=
  let word := (Text.lower name).toList
  if prefixedStart.isPrefixOf word then
    some (String.ofList (pointsForUnderscores (word.drop prefixedStart.length)))
  else none

/-- The layer of the variables `PORTAL__SECTION__KEY`. -/
def prefixedLayer (vars : Variables) : Table :=
  vars.filterMap fun (name, value) => (keyOfVariable? name).map fun key => (key, .str value)

/-- The variables with names of their own, and the key that each sets. -/
def namedVariables : List (String × String) :=
  [("PORT", "server.port"),
    ("LOG_LEVEL", "log.level"),
    ("LOG_SERVER", "log.server"),
    ("SESSION_REDIS_URI", "session.redis_uri"),
    ("SESSION_REDIS_HOST", "session.redis_host"),
    ("SESSION_REDIS_PORT", "session.redis_port"),
    ("SESSION_REDIS_DB", "session.redis_db"),
    ("SESSION_SECRET", "session.secret"),
    ("SESSION_COOKIE_TTL", "session.cookie_ttl_secs"),
    ("DATABASE_HOST", "database.host"),
    ("DATABASE_PORT", "database.port"),
    ("DATABASE_USERNAME", "database.username"),
    ("DATABASE_PASSWORD", "database.password"),
    ("DATABASE_DATABASE", "database.database"),
    ("DATABASE_SCHEMA", "database.schema"),
    ("DATABASE_MAX_CONNECTIONS", "database.max_connections"),
    ("DATABASE_LOGGING", "database.logging"),
    ("MICROSERVICE_URL", "microservice.url"),
    ("FILES_URL", "files.url")]

/-- The value of a variable, unless it is blank. -/
def Variables.notBlank? (vars : Variables) (name : String) : Option String :=
  (vars.get? name).filter fun value => !Text.isBlankText value

/-- The entries of a list between commas, without the blanks around them and without empty ones. -/
def commaList (text : String) : List String :=
  (((text.toList.splitOn ',').map Text.trimL).filter (!·.isEmpty)).map String.ofList

/-- The layer of the variables with names of their own. Blank ones do not count. -/
def namedLayer (vars : Variables) : Table :=
  (namedVariables.filterMap fun (name, key) => (vars.notBlank? name).map fun v => (key, .str v)) ++
    ((vars.notBlank? "DATABASE_REPLICAS").map fun v =>
      ("database.replicas", .list ((commaList v).map .str))).toList

/-! ## Loading -/

/-- The layers over the defaults, the lowest first. -/
structure Layers where
  portal : Table
  custom : Table
  prefixed : Table
  named : Table

namespace Layers

/-- All layers, the lowest first. -/
def toList (l : Layers) : List Table :=
  [Settings.toTable .default, l.portal, l.custom, l.prefixed, l.named]

/-- The value that all layers give together. -/
def value (l : Layers) : Value :=
  l.toList.foldl (fun value layer => writeAll layer value) (.table [])

/-- The settings that all layers give together. -/
def settings (l : Layers) : Except LoadFailure Settings :=
  match ofValue? l.value with
  | none => .error .unreadable
  | some s =>
    match s.check with
    | .ok () => .ok s
    | .error reason => .error (.unfit reason)

end Layers

/-- The variables of the process together with those of the file `.env`. -/
def Surroundings.allVariables (s : Surroundings) : Variables :=
  match s.files.find? (·.1 = ".env") with
  | some (_, text) => Dotenv.load s.environment text
  | none => s.environment

/-- The layers that are found. -/
def Surroundings.layers (s : Surroundings) : Except LoadFailure Layers := do
  let vars := s.allVariables
  let portal ← fileLayer s.files "portal"
  let custom ← match vars.get? "PORTAL_CONFIG" with
    | some name => fileLayer s.files name
    | none => pure []
  return ⟨portal, custom, prefixedLayer vars, namedLayer vars⟩

/-- The settings that are found. -/
def load (s : Surroundings) : Except LoadFailure Settings := do (← s.layers).settings

end Intranet.Settings
