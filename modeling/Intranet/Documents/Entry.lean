import Intranet.Failure
import Intranet.Principal
import Intranet.Text.Quoted

/-!
# Documents

What the document backend deals in: entries of folders, the credentials it is called with, and the
four calls it answers.
-/

namespace Intranet.Documents

/-! ## Entries -/

/-- A file or folder. -/
structure Entry where
  name : String
  path : String
  isFolder : Bool
  size : UInt64
  modified : Option Instant
  deriving DecidableEq, Repr

namespace Entry

/-- An entry whose fields are being read. -/
structure Draft where
  name : Option String
  path : Option String
  isFolder : Option Bool
  size : Option UInt64
  modified : Option (Option Instant)

/-- The fields of an entry, of which only the first two are required. -/
def fields : List (Json.Decoder.Field Draft) :=
  [.slot "name" .text (fun v d => { d with name := v }) Draft.name true false,
    .slot "path" .text (fun v d => { d with path := v }) Draft.path true false,
    .slot "isFolder" .flag (fun v d => { d with isFolder := v }) Draft.isFolder false true,
    .slot "size" .count (fun v d => { d with size := v }) Draft.size false true,
    .slot "modified" (.nullable Instant.decoder) (fun v d => { d with modified := v })
      Draft.modified false true]

/-- The entry of a finished draft. -/
def Draft.finish (d : Draft) : Entry :=
  ⟨d.name.getD "", d.path.getD "", d.isFolder.getD false, d.size.getD 0, d.modified.join⟩

/-- Reads an entry. -/
def decoder : Json.Decoder Entry :=
  .record "FileEntry" fields ⟨none, none, none, none, none⟩ Draft.finish

/-- An entry as clients see it. -/
def json (e : Entry) : Json :=
  .obj [("name", .str e.name), ("path", .str e.path), ("isFolder", .bool e.isFolder),
    ("size", .nat e.size.toNat), ("modified", .optStr (e.modified.map Instant.text))]

end Entry

/-! ## Calls -/

/-- Who a call to the backend is made for. -/
structure Credential where
  username : String
  secret : String
  deriving DecidableEq, Repr

/-- A credential for the journal: the secret is not shown. -/
def Credential.description (c : Credential) : String :=
  "Credential \x7b username: " ++ Text.quote c.username ++ ", secret: \"<redacted>\" \x7d"

/-- What a call asks for. -/
inductive Request where
  | listFolder
  | putFile (content : List UInt8)
  | getFile
  | fileUrl
  deriving DecidableEq, Repr

/-- The name of a request. -/
def Request.name : Request → String
  | listFolder => "list_folder"
  | putFile _ => "put_file"
  | getFile => "get_file"
  | fileUrl => "get_file_url"

/-- A call to the backend. -/
structure Call where
  request : Request
  credential : Credential
  path : String
  deriving DecidableEq, Repr

end Intranet.Documents
