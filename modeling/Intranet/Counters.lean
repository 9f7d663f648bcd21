import Intranet.Json.Basic

/-!
# Counters

Eight counters of the request pipeline, each a natural number of 64 bits that wraps around, and
their two written forms.
-/

namespace Intranet

/-- What is counted. -/
structure Counters where
  authDenied : UInt64
  loginsSucceeded : UInt64
  loginsFailed : UInt64
  faults : UInt64
  graphqlErrors : UInt64
  fileOps : UInt64
  fileDenied : UInt64
  syncTriggered : UInt64
  deriving DecidableEq, Repr

namespace Counters

/-- Nothing counted yet. -/
def zero : Counters := ⟨0, 0, 0, 0, 0, 0, 0, 0⟩

instance : Inhabited Counters := ⟨zero⟩

/-! ## Events -/

def countAuthDenied (c : Counters) : Counters := { c with authDenied := c.authDenied + 1 }
def countLoginSucceeded (c : Counters) : Counters :=
  { c with loginsSucceeded := c.loginsSucceeded + 1 }
def countLoginFailed (c : Counters) : Counters := { c with loginsFailed := c.loginsFailed + 1 }
def countFault (c : Counters) : Counters := { c with faults := c.faults + 1 }
def countGraphqlError (c : Counters) : Counters := { c with graphqlErrors := c.graphqlErrors + 1 }
def countFileOp (c : Counters) : Counters := { c with fileOps := c.fileOps + 1 }
def countFileDenied (c : Counters) : Counters := { c with fileDenied := c.fileDenied + 1 }
def countSyncTriggered (c : Counters) : Counters := { c with syncTriggered := c.syncTriggered + 1 }

/-- Counts what the counter of a name counts. Under any other name nothing is counted. -/
def count (c : Counters) (name : String) : Counters :=
  match name with
  | "auth_denied" => c.countAuthDenied
  | "logins_succeeded" => c.countLoginSucceeded
  | "logins_failed" => c.countLoginFailed
  | "faults" => c.countFault
  | "graphql_errors" => c.countGraphqlError
  | "file_ops" => c.countFileOp
  | "file_denied" => c.countFileDenied
  | "sync_triggered" => c.countSyncTriggered
  | _ => c

/-! ## Written forms -/

/-- The counters that stand under their names. -/
def ofFields (value : String → UInt64) : Counters :=
  ⟨value "auth_denied", value "logins_succeeded", value "logins_failed", value "faults",
    value "graphql_errors", value "file_ops", value "file_denied", value "sync_triggered"⟩

/-- The counters under their names. -/
def fields (c : Counters) : List (String × UInt64) :=
  [("auth_denied", c.authDenied), ("logins_succeeded", c.loginsSucceeded),
    ("logins_failed", c.loginsFailed), ("faults", c.faults), ("graphql_errors", c.graphqlErrors),
    ("file_ops", c.fileOps), ("file_denied", c.fileDenied), ("sync_triggered", c.syncTriggered)]

/-- The counters and the time since the start in seconds, as a JSON object. -/
def json (c : Counters) (uptime : UInt64) : Json :=
  .obj ((c.fields ++ [("uptime_seconds", uptime)]).map fun (k, n) => (k, .nat n.toNat))

/-- What a counter counts. -/
def help : List String :=
  ["Requests denied by the auth guard", "Successful logins", "Rejected logins",
    "Faults handled by the exception filter", "GraphQL field errors",
    "File operations delegated to the document backend",
    "File operations refused before delegation", "Directory synchronizations triggered"]

/-- A value in the text exposition format, after two comment lines that explain it. -/
def sample (name help kind : String) (value : UInt64) : String :=
  "# HELP " ++ name ++ " " ++ help ++ "\n# TYPE " ++ name ++ " " ++ kind ++ "\n" ++
    name ++ " " ++ toString value.toNat ++ "\n"

/-- The counters and the time since the start in the text exposition format. -/
def exposition (c : Counters) (uptime : UInt64) : String :=
  String.join ((c.fields.zip help).map fun ((name, value), help) =>
    sample ("portal_" ++ name) help "counter" value) ++
  sample "portal_uptime_seconds" "Uptime seconds" "gauge" uptime

end Counters

end Intranet
