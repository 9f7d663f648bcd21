import Intranet.Crypto.Hmac
import Intranet.Session.Record
import Intranet.Text.Utf8

/-!
# Signed identifiers

A cookie carries a session identifier, a point and a keyed hash of the identifier in hexadecimal,
so that clients cannot make up identifiers.
-/

namespace Intranet.Session

/-- A keyed hash of 32 bytes. -/
structure Signer where
  mac : List UInt8 → List UInt8
  length_mac : ∀ message, (mac message).length = 32

namespace Signer

/-- The signer with a secret. -/
def ofSecret (secret : String) : Signer :=
  ⟨Crypto.Hmac.mac (Utf8.encode secret), Crypto.Hmac.length_mac _⟩

/-- The keyed hash of an identifier. -/
def macOf (s : Signer) (id : Id) : List UInt8 := s.mac (Utf8.encode id.text)

/-- The characters of a signed identifier. -/
def signL (s : Signer) (id : Id) : List Char := id.text.toList ++ '.' :: Hex.encodeL (s.macOf id)

/-- A signed identifier. -/
def sign (s : Signer) (id : Id) : String := String.ofList (s.signL id)

/-- What stands before and after the first point. -/
def splitAtPoint? : List Char → Option (List Char × List Char)
  | [] => none
  | c :: rest =>
    if c = '.' then some ([], rest)
    else (splitAtPoint? rest).map fun (before, after) => (c :: before, after)

/-- The identifier of a cookie value whose signature is right. -/
def verifyL (s : Signer) (value : List Char) : Option Id := do
  let (before, after) ← splitAtPoint? value
  let id ← Id.ofDigits? before
  let signature ← Hex.decodeL? after
  if signature = s.macOf id then some id else none

/-- The identifier of a cookie value whose signature is right. -/
def verify (s : Signer) (value : String) : Option Id := s.verifyL value.toList

end Signer

end Intranet.Session
