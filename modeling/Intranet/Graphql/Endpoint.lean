import Intranet.Filter
import Intranet.Graphql.Registry
import Intranet.Http.JsonBody

/-!
# GraphQL over HTTP

A request names a document and its variables. Whatever becomes of its root field, the response is a
JSON object with data or with a single error, and it never carries a fault.
-/

namespace Intranet.Graphql

/-- The body of a request. -/
structure Asked where
  query : String
  operationName : Option String
  given : Option Members

namespace Asked

/-- A body whose fields are being read. -/
structure Draft where
  query : Option String
  operationName : Option (Option String)
  given : Option (Option Members)

/-- The fields of a body, of which only the first is required. -/
def fields : List (Json.Decoder.Field Draft) :=
  [.slot "query" .text (fun v d => { d with query := v }) Draft.query true false,
    .slot "operationName" (.nullable .text) (fun v d => { d with operationName := v })
      Draft.operationName false true,
    .slot "variables" (.nullable .members) (fun v d => { d with given := v }) Draft.given
      false true]

/-- The body of a finished draft. -/
def Draft.finish (d : Draft) : Asked :=
  ⟨d.query.getD "", d.operationName.join, d.given.join⟩

/-- Reads a body. -/
def decoder : Json.Decoder Asked :=
  .record "GraphQlRequest" fields ⟨none, none, none⟩ Draft.finish

end Asked

/-! ## Answers -/

/-- A response with data. -/
def dataBody (key : String) (value : Json) : Json := .obj [("data", .obj [(key, value)])]

/-- A response with an error in place of data. -/
def errorBody (error : GraphqlError) : Json :=
  .obj [("data", .null), ("errors", .arr [error.json])]

/-- The name of the type that a document starts from, as far as it can be told. -/
def parentType (query : String) : String :=
  ((hint query).map (·.typeName)).getD "Document"

/-- An error of the whole request: it is written down, and no resolver runs. -/
def reject (parent code message : String) : Handling Json := do
  Handling.onLedger (Task.write .debug (parent ++ " rejected with " ++ code ++ ": " ++ message))
  return errorBody ⟨message, [], code⟩

/-- Runs the resolver of a field behind its guard. -/
def runField (c : Collaborators) (field : Field) (root : RootField) : Handling Json := do
  let principal ← Handling.guarded field.guard
  field.resolve c ⟨principal, root.arguments⟩

/-- The value of a root field, or its failure as an entry of the list of errors. A crash goes
on. -/
def settle (root : RootField) (run : Handling Json) : Handling Json := ExceptT.mk fun scene =>
  match run.run scene with
  | (.ok value, scene) => (.ok (dataBody root.key value), scene)
  | (.error (.crashed payload), scene) => (.error (.crashed payload), scene)
  | (.error (.failed f), scene) =>
    let ledger := f.fault.record (.graphql root.operation.typeName root.name) scene.ledger
    (.ok (errorBody ⟨f.message, [root.key], f.code⟩), { scene with ledger := ledger })

/-- The answer to a request. -/
def execute (c : Collaborators) (registry : Registry) (asked : Asked) : Handling Json := do
  match parse asked.query (asked.given.getD []) with
  | .error e => reject (parentType asked.query) e.code e.message
  | .ok root =>
    let parent := root.operation.typeName
    Handling.onLedger (Task.write .debug ("GraphQL " ++ parent ++ "." ++ root.name ++
      " (operation " ++ asked.operationName.getD "anonymous" ++ ")"))
    match registry.lookup root.operation root.name with
    | none =>
      reject (parent ++ "." ++ root.name) "GRAPHQL_VALIDATION_FAILED"
        ("Cannot query field \"" ++ root.name ++ "\" on type \"" ++ parent ++ "\".")
    | some field => settle root (runField c field root)

/-- The response to a request. A body that is refused is an error of the whole request. -/
def respond (c : Collaborators) (registry : Registry) (r : Http.Request) :
    Handling Http.Response := do
  match r.json Asked.decoder with
  | .error rejection => return .json 400 (errorBody ⟨rejection.message, [], "BAD_REQUEST"⟩)
  | .ok asked => return .json 200 (← execute c registry asked)

end Intranet.Graphql
