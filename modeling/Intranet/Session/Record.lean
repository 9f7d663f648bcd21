import Intranet.Principal
import Intranet.Text.Letter

/-!
# Session records

What is kept for a session under its identifier: who is signed in, the credential for the document
backend, free claims, and when it ends.
-/

namespace Intranet.Session

/-! ## Identifiers -/

/-- The identifier of a session. Those that cookies carry are 32 lower-case hexadecimal digits. -/
structure Id where
  text : String
  deriving DecidableEq, Repr, Inhabited, Hashable

namespace Id

/-- Whether characters are the 32 digits of an identifier, in either case. -/
def isDigits (cs : List Char) : Bool := cs.length = 32 && cs.all Hex.isDigit

/-- The identifier with these digits, if they are such. -/
def ofDigits? (cs : List Char) : Option Id :=
  if isDigits cs then some ⟨String.ofList (cs.map Text.lowerChar)⟩ else none

/-- The identifier with these digits, if they are such. -/
def ofText? (s : String) : Option Id := ofDigits? s.toList

/-- The identifier with the digits of a universally unique one. Those that are drawn are made
so. -/
def ofUuid (u : Uuid) : Id := ⟨String.ofList u.digits⟩

end Id

/-! ## Records -/

/-- The claim that makes a session one of an administrator. -/
def adminClaim : String := "isAdmin"

/-- What is kept for a session. -/
structure Record where
  id : Id
  principal : Option Principal
  credential : Option String
  claims : Members
  expiresAt : Instant
  deriving Repr, Inhabited

namespace Record

/-- A record whose fields are being read. -/
structure Draft where
  id : Option String
  principal : Option (Option Principal)
  credential : Option (Option String)
  claims : Option Members
  expiresAt : Option Instant

/-- The fields of a record. Objects may leave out who is signed in and the credential. -/
def fields : List (Json.Decoder.Field Draft) :=
  [.slot "id" .text (fun v d => { d with id := v }) Draft.id true false,
    .slot "principal" (.nullable Principal.decoder) (fun v d => { d with principal := v })
      Draft.principal false false,
    .slot "credential" (.nullable .text) (fun v d => { d with credential := v }) Draft.credential
      false false,
    .slot "claims" .members (fun v d => { d with claims := v }) Draft.claims true false,
    .slot "expires_at" Instant.decoder (fun v d => { d with expiresAt := v }) Draft.expiresAt true
      false]

/-- The record of a finished draft. -/
def Draft.finish (d : Draft) : Record :=
  ⟨⟨d.id.getD ""⟩, d.principal.join, d.credential.join, d.claims.getD [], d.expiresAt.getD default⟩

/-- Reads a record. -/
def decoder : Json.Decoder Record :=
  .record "SessionRecord" fields ⟨none, none, none, none, none⟩ Draft.finish

/-- A record as it is stored. -/
def json (r : Record) : Json :=
  .obj [("id", .str r.id.text), ("principal", r.principal.elim .null Principal.json),
    ("credential", .optStr r.credential), ("claims", .obj r.claims),
    ("expires_at", .str r.expiresAt.text)]

/-- The text under which a record is stored. -/
def text (r : Record) : String := r.json.text

/-- The record that a stored text stands for. -/
def ofText (s : String) : Except Json.Failure Record := decoder.runText s

end Record

end Intranet.Session
