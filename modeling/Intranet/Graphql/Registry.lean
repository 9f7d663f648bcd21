import Intranet.Graphql.Document
import Intranet.Portal.Basic
import Intranet.Text.Base64

/-!
# Root fields

Each root field has a resolver and a guard in front of it. The portal has five fields; others can
be registered.
-/

namespace Intranet.Graphql

/-- What a resolver is given besides the scene. -/
structure Query where
  /-- Who is signed in, as the guard found. -/
  principal : Option Principal
  arguments : Members

namespace Query

/-- A string argument, if it is given. -/
def optional (q : Query) (name : String) : Option String :=
  (Members.get? name q.arguments).bind Json.str?

/-- A string argument that has to be given. -/
def required (q : Query) (name : String) : Except Failure String :=
  match q.optional name with
  | some s => .ok s
  | none => .error (.invalid name "Argument is required")

/-- The path argument. A missing one is empty, which the gateway refuses like a missing
credential. -/
def path (q : Query) : String := (q.optional "path").getD ""

end Query

/-- Answers a root field. -/
def Resolver : Type := Collaborators → Query → Handling Json

/-- A root field. -/
structure Field where
  operation : Operation
  name : String
  guard : Session.Guard
  resolve : Resolver

/-! ## The registry -/

/-- The root fields that can be asked for, each operation and name once. -/
structure Registry where
  fields : List Field

namespace Registry

/-- No field yet. -/
def empty : Registry := ⟨[]⟩

/-- The field of an operation and a name. -/
def lookup (r : Registry) (operation : Operation) (name : String) : Option Field :=
  r.fields.find? fun f => f.operation = operation && f.name = name

/-- Registers a field, in place of an earlier one. -/
def register (f : Field) (r : Registry) : Registry :=
  ⟨r.fields.filter (fun g => !(g.operation = f.operation && g.name = f.name)) ++ [f]⟩

/-- The number of fields. -/
def size (r : Registry) : Nat := r.fields.length

/-- Whether there is no field. -/
def isEmpty (r : Registry) : Bool := r.fields.isEmpty

end Registry

/-! ## The fields of the portal

A record that a field shows becomes a value, with its members sorted by name.
-/

open Documents (perform requireCredential)

/-- Who is signed in. -/
def me : Resolver := fun _ q => do
  match q.principal with
  | some principal => return (principal.view (← Handling.session).isAdmin).sorted
  | none => Task.fail (.forbidden Session.denied)

/-- The entries of a folder. -/
def folderFiles : Resolver := fun c q => do
  let caller ← Handling.caller
  let entries ← Handling.onLedger (perform c.documents caller q.path .listFolder)
  return (Json.arr (entries.map Documents.Entry.json)).sorted

/-- The content of a file, in base64. -/
def getFile : Resolver := fun c q => do
  let caller ← Handling.caller
  let content ← Handling.onLedger (perform c.documents caller q.path .getFile)
  return .str (Base64.encode content)

/-- An address under which a file can be shared. -/
def getFileUrl : Resolver := fun c q => do
  let caller ← Handling.caller
  let url ← Handling.onLedger (perform c.documents caller q.path .fileUrl)
  return .str url

/-- Stores a file that is given in base64. Credential and path are looked at before the content. -/
def putFile : Resolver := fun c q => do
  let caller ← Handling.caller
  discard (Handling.onLedger (requireCredential "put_file" caller q.path))
  let text ← Task.check (q.required "content")
  match Base64.decode? text with
  | none => Task.fail (.invalid "content" "Content must be base64 encoded")
  | some content =>
    let entry ← Handling.onLedger (perform c.documents caller q.path (.putFile content))
    return entry.json.sorted

/-- The root fields of the portal. -/
def portalFields : List Field :=
  [⟨.query, "me", .authenticated, me⟩,
    ⟨.query, "folderFiles", .authenticated, folderFiles⟩,
    ⟨.query, "getFile", .authenticated, getFile⟩,
    ⟨.query, "getFileURL", .authenticated, getFileUrl⟩,
    ⟨.mutation, "putFile", .authenticated, putFile⟩]

/-- The registry of the portal. -/
def portalRegistry : Registry := portalFields.foldl (fun r f => r.register f) .empty

end Intranet.Graphql
