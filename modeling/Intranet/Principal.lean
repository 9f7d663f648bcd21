import Intranet.Json.Decoder
import Intranet.Json.Printer
import Intranet.Time.Reader
import Intranet.Uuid

/-!
# People

A principal is who is signed in; a profile is what the directory knows about a person.
-/

namespace Intranet

/-- Reads an identifier from a JSON string. -/
def Uuid.decoder : Json.Decoder Uuid :=
  .formatted "a UUID string" fun s =>
    (Uuid.ofText s).mapError fun e => "UUID parsing failed: " ++ e.message

/-- Reads a point in time from a JSON string. -/
def Instant.decoder : Json.Decoder Instant :=
  .formatted "an RFC 3339 formatted date and time string" fun s =>
    (Instant.ofText s).mapError Instant.Misread.message

/-! ## Principals -/

/-- Who is signed in. -/
structure Principal where
  id : Uuid
  login : String
  displayName : String
  isAdmin : Bool
  deriving DecidableEq, Repr, Inhabited

namespace Principal

/-- A principal whose fields are being read. -/
structure Draft where
  id : Option Uuid
  login : Option String
  displayName : Option String
  isAdmin : Option Bool

/-- The fields of a principal, all of them required. -/
def fields : List (Json.Decoder.Field Draft) :=
  [.slot "id" Uuid.decoder (fun v d => { d with id := v }) Draft.id true false,
    .slot "login" .text (fun v d => { d with login := v }) Draft.login true false,
    .slot "display_name" .text (fun v d => { d with displayName := v })
      Draft.displayName true false,
    .slot "is_admin" .flag (fun v d => { d with isAdmin := v }) Draft.isAdmin true false]

/-- The principal of a finished draft. -/
def Draft.finish (d : Draft) : Principal :=
  ⟨d.id.getD default, d.login.getD "", d.displayName.getD "", d.isAdmin.getD false⟩

/-- Reads a principal. -/
def decoder : Json.Decoder Principal :=
  .record "Principal" fields ⟨none, none, none, none⟩ Draft.finish

/-- A principal as it is stored. -/
def json (p : Principal) : Json :=
  .obj [("id", .str p.id.text), ("login", .str p.login), ("display_name", .str p.displayName),
    ("is_admin", .bool p.isAdmin)]

/-- A principal as clients see it, with the rights of the session. -/
def view (p : Principal) (isAdmin : Bool) : Json :=
  .obj [("id", .str p.id.text), ("login", .str p.login), ("displayName", .str p.displayName),
    ("isAdmin", .bool isAdmin)]

end Principal

/-! ## Profiles -/

/-- What the directory knows about a person. -/
structure Profile where
  id : Uuid
  login : String
  displayName : String
  email : Option String
  department : Option String
  title : Option String
  gender : Option String
  phone : Option String
  isAdmin : Bool
  syncedAt : Option Instant
  deriving DecidableEq, Repr

/-- A profile as clients see it. -/
def Profile.json (p : Profile) : Json :=
  .obj [("id", .str p.id.text), ("login", .str p.login), ("displayName", .str p.displayName),
    ("email", .optStr p.email), ("department", .optStr p.department), ("title", .optStr p.title),
    ("gender", .optStr p.gender), ("phone", .optStr p.phone), ("isAdmin", .bool p.isAdmin),
    ("syncedAt", .optStr (p.syncedAt.map Instant.text))]

end Intranet
