import Intranet.Http.Response
import Intranet.Text.Blank

/-!
# Cookies

Pairs of names and values in the headers that clients send, and the header that sets a cookie.
-/

namespace Intranet.Http

/-- Whether a header has visible ASCII characters, blanks and tabs only. Others are not looked
at. -/
def isVisibleHeader (header : String) : Bool :=
  header.toList.all fun c => c = '\t' || (0x20 ≤ c.toNat && c.toNat < 0x7F)

/-- A name and a value around the first equals sign, without blanks at their ends. A name may not
be empty. -/
def cookiePair? (part : List Char) : Option (List Char × List Char) :=
  match part.span (· ≠ '=') with
  | (_, []) => none
  | (name, _ :: value) =>
    let name := Text.trimL name
    if name.isEmpty then none else some (name, Text.trimL value)

/-- The pairs of a header, from left to right. -/
def cookiePairs (header : String) : List (List Char × List Char) :=
  if isVisibleHeader header then (header.toList.splitOn ';').filterMap cookiePair? else []

/-- The header that sets a cookie for the whole site, for so many seconds. A name that no header
can hold leaves the header empty. -/
def setCookie (name value : String) (maxAge : Nat) : String :=
  let header := name ++ "=" ++ value ++ "; SameSite=Lax; Path=/; Max-Age=" ++ toString maxAge
  if Response.isHeaderValue header then header else ""

end Intranet.Http
