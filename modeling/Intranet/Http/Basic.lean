import Intranet.Text.Base64
import Intranet.Text.Utf8

/-!
# Basic credentials

The header by which a name and a secret are sent along with a request: both with a colon between
them, in base64. It is read back at the first colon.
-/

namespace Intranet.Http.Basic

/-- What stands in front of the encoded credentials. -/
def scheme : String := "Basic "

/-- The header for a name and a secret. -/
def header (name secret : String) : String :=
  scheme ++ Base64.encode (Utf8.encode (name ++ ":" ++ secret))

/-- The name and the secret of decoded credentials: what stands before and after the first
colon. -/
def splitAtColon? (cs : List Char) : Option (String × String) :=
  match cs.span (· ≠ ':') with
  | (name, _ :: secret) => some (String.ofList name, String.ofList secret)
  | (_, []) => none

/-- The name and the secret of a header. -/
def read? (header : String) : Option (String × String) := do
  let cs := header.toList
  if !scheme.toList.isPrefixOf cs then none
  let bytes ← Base64.decodeL? (cs.drop scheme.length)
  splitAtColon? (← Utf8.decode? bytes).toList

end Intranet.Http.Basic
