import Intranet.Http.Cookie
import Intranet.Text.Letter

/-!
# Media types

The value of a `Content-Type` header: type, subtype and parameters.
-/

namespace Intranet.Http.MediaType

/-- A character of a token. -/
def isToken (c : Char) : Bool :=
  c.isAlphanum || "!#$%&'*+-.^_`|~".toList.contains c

/-- A character inside quotes. -/
def isQuotable (c : Char) : Bool := 0x20 ≤ c.toNat && c.toNat ≠ 0x7F

/-- Past the value of a parameter and the semicolon behind it. -/
def skipValue : List Char → Option (List Char)
  | '"' :: rest =>
    match rest with
    | [] => none
    | c :: more =>
      if !isQuotable c then none
      else
        match more.span (· ≠ '"') with
        | (_, []) => none
        | (inside, _ :: after) =>
          if !inside.all isQuotable then none
          else
            match after.dropWhile (· = ' ') with
            | [] => some []
            | ';' :: next => some next
            | _ => none
  | cs =>
    match cs.span isToken with
    | (_, []) => some []
    | (value, ';' :: next) => if value.isEmpty then none else some next
    | _ => none

/-- Whether the rest behind a semicolon is a list of parameters. -/
def areParameters : Nat → List Char → Bool
  | _, [] => true
  | 0, _ => false
  | fuel + 1, cs =>
    match (cs.dropWhile (· = ' ')).span isToken with
    | (name, '=' :: value) =>
      if name.isEmpty then false
      else
        match skipValue value with
        | some rest => areParameters fuel rest
        | none => false
    | _ => false

/-- The subtype without its suffix, and the suffix behind the last plus sign that is not the first
character. -/
def splitSuffix (subtype : List Char) : List Char × Option (List Char) :=
  match subtype.reverse.span (· ≠ '+') with
  | (_, []) | (_, [_]) => (subtype, none)
  | (suffix, _ :: before) => (before.reverse, some suffix.reverse)

/-- Whether a value names JSON: `application/json`, or another kind of `application` with the
suffix `json`. Parameters may follow. -/
def isJson (value : String) : Bool :=
  isVisibleHeader value &&
  match value.toList.span isToken with
  | (kind, '/' :: rest) =>
    match rest.span isToken with
    | (subtype, after) =>
      let parametersFit := match after with
        | [] => true
        | ';' :: parameters => areParameters (parameters.length + 1) parameters
        | _ => false
      let (main, suffix) := splitSuffix (subtype.map Text.lowerChar)
      parametersFit && kind.map Text.lowerChar = "application".toList &&
        !subtype.isEmpty && (main = "json".toList || suffix = some "json".toList)
  | _ => false

end Intranet.Http.MediaType
