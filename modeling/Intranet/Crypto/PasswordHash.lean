import Intranet.Crypto.Argon2
import Intranet.Text.Base64
import Intranet.Number.Decimal
import Intranet.Text.Utf8

/-!
# Stored password hashes

The text in which a password hash is kept: the function, its version, its parameters, the salt and
the hash itself, each after a dollar sign and each but the first optional. A hash is checked by
making it anew from the password.
-/

namespace Intranet.Crypto

/-- What is wrong with a value. -/
inductive ValueFlaw where
  | badChar (c : Char)
  | badFormat
  | malformed
  | tooLong
  | tooShort
  deriving DecidableEq, Repr

/-- The text for what is wrong with a value. -/
def ValueFlaw.message : ValueFlaw → String
  | badChar c => "contains invalid character: '" ++ String.singleton c ++ "'"
  | badFormat => "value format is invalid"
  | malformed => "value malformed"
  | tooLong => "value to long"
  | tooShort => "value to short"

/-- Why a stored hash cannot be used. -/
inductive HashFlaw where
  | missingField
  | trailing
  | algorithm
  | version
  | paramName
  | paramValue (why : ValueFlaw)
  | paramsTooLong
  | salt (why : ValueFlaw)
  | encoding
  | encodingLength
  | outputTooShort
  deriving DecidableEq, Repr

/-- The text for a flaw. -/
def HashFlaw.message : HashFlaw → String
  | missingField => "password hash string missing field"
  | trailing => "password hash string contains trailing characters"
  | algorithm => "unsupported algorithm"
  | version => "invalid algorithm version"
  | paramName => "invalid parameter name"
  | paramValue why => "invalid parameter value: " ++ why.message
  | paramsTooLong => "maximum number of parameters reached"
  | salt why => "salt invalid: " ++ why.message
  | encoding => "invalid Base64 encoding"
  | encodingLength => "invalid Base64 length"
  | outputTooShort => "output size too short, expected at least 10 bytes"

/-! ## Parts of the text -/

/-- A name of one to thirty-two small letters, digits and hyphens. -/
def hashName (cs : List Char) : Except HashFlaw (List Char) :=
  let isNameChar (c : Char) := ('a' ≤ c && c ≤ 'z') || Decimal.isDigit c || c = '-'
  if cs ≠ [] ∧ cs.length ≤ 32 ∧ cs.all isNameChar then .ok cs else .error .paramName

/-- A character of a value. -/
def isHashValueChar (c : Char) : Bool := c.isAlphanum || c = '/' || c = '+' || c = '.' || c = '-'

/-- A value of at most sixty-four characters. -/
def hashValue (cs : List Char) : Except HashFlaw (List Char) :=
  if 64 < Utf8.lengthL cs then .error (.paramValue .tooLong)
  else
    match cs.find? (!isHashValueChar ·) with
    | some c => .error (.paramValue (.badChar c))
    | none => .ok cs

/-- A number of 32 bits in decimal digits, without zeros in front. -/
def hashNumber (cs : List Char) : Except HashFlaw Nat :=
  if cs.isEmpty then .error (.paramValue .malformed)
  else
    match cs.find? (!Decimal.isDigit ·) with
    | some c => .error (.paramValue (.badChar c))
    | none =>
      let n := Decimal.natOnto 0 cs
      if (cs.head? = some '0' ∧ 1 < cs.length) ∨ Nat.pow 2 32 ≤ n then
        .error (.paramValue .badFormat)
      else .ok n

/-- The bytes of a text in base64 without padding, at most so many. -/
def unpadded (limit : Nat) (cs : List Char) : Except HashFlaw (List UInt8) :=
  if limit < Utf8.lengthL cs * 3 / 4 then .error .encodingLength
  else if cs.contains '=' ∨ cs.length % 4 = 1 then .error .encoding
  else
    match Base64.decodeL? (cs ++ List.replicate ((4 - cs.length % 4) % 4) '=') with
    | some bytes => .ok bytes
    | none => .error .encoding

/-- A parameter: a name, an equals sign and a value. -/
def hashParam (cs : List Char) : Except HashFlaw (String × List Char) :=
  match cs.splitOn '=' with
  | [name, value] => do return (String.ofList (← hashName name), ← hashValue value)
  | name :: value :: _ => do
    discard (hashName name)
    discard (hashValue value)
    throw .paramName
  | [name] => do
    discard (hashName name)
    throw .paramName
  | [] => .error .paramName

/-- Parameters between commas. -/
def hashParams (cs : List Char) : Except HashFlaw (List (String × List Char)) :=
  if 127 < Utf8.lengthL cs then .error .paramsTooLong
  else (cs.splitOn ',').mapM hashParam

/-- A salt, which is kept as it is written. -/
def hashSalt (cs : List Char) : Except HashFlaw (List Char) :=
  let length := Utf8.lengthL cs
  if length < 4 then .error (.salt .tooShort)
  else if 64 < length then .error (.salt .tooLong)
  else
    match cs.find? (!isHashValueChar ·) with
    | some c => .error (.salt (.badChar c))
    | none => .ok cs

/-- The hash itself, of ten to sixty-four bytes. -/
def hashOutput (cs : List Char) : Except HashFlaw (List UInt8) := do
  let bytes ← unpadded 64 cs
  if bytes.length < 10 then throw .outputTooShort
  return bytes

/-! ## Stored hashes -/

/-- A password hash as it is stored. -/
structure PasswordHash where
  algorithm : String
  version : Option Nat
  params : List (String × List Char)
  salt : Option (List Char)
  output : Option (List UInt8)
  deriving DecidableEq, Repr

namespace PasswordHash

/-- The version that the first field gives, if it gives one, and the fields after it. -/
def takeVersion : List (List Char) → Except HashFlaw (Option Nat × List (List Char))
  | ('v' :: '=' :: digits) :: rest =>
    if digits.contains ',' then .ok (none, ('v' :: '=' :: digits) :: rest)
    else do return (some (← hashNumber (← hashValue digits)), rest)
  | fields => .ok (none, fields)

/-- The parameters that the first field gives, if it gives some, and the fields after it. -/
def takeParams : List (List Char) →
    Except HashFlaw (List (String × List Char) × List (List Char))
  | field :: rest =>
    if field.contains '=' then do return (← hashParams field, rest) else .ok ([], field :: rest)
  | [] => .ok ([], [])

/-- Reads a stored hash. -/
def ofText (text : String) : Except HashFlaw PasswordHash := do
  match text.toList.splitOn '$' with
  | [] :: algorithm :: fields =>
    let algorithm ← hashName algorithm
    let (version, fields) ← takeVersion fields
    let (params, fields) ← takeParams fields
    let (salt, fields) ← match fields with
      | field :: rest => (hashSalt field).map fun salt => (some salt, rest)
      | [] => pure (none, [])
    match fields with
    | [] => return ⟨String.ofList algorithm, version, params, salt, none⟩
    | [output] => return ⟨String.ofList algorithm, version, params, salt, ← hashOutput output⟩
    | output :: _ =>
      discard (hashOutput output)
      throw .trailing
  | _ => throw .missingField

/-! ## Checking -/

/-- The cost of a hash, and the data that goes into it. -/
structure Cost where
  memory : Nat
  passes : Nat
  lanes : Nat
  data : List UInt8
  deriving DecidableEq, Repr

/-- The cost of new hashes. -/
def Cost.standard : Cost := ⟨19456, 2, 1, []⟩

/-- The bytes of a parameter, at most so many. -/
def paramBytes (limit : Nat) (value : List Char) : Except HashFlaw (List UInt8) :=
  unpadded limit value

/-- The cost with one more parameter. -/
def Cost.set (c : Cost) (param : String × List Char) : Except HashFlaw Cost :=
  match param with
  | ("m", value) => do return { c with memory := ← hashNumber value }
  | ("t", value) => do return { c with passes := ← hashNumber value }
  | ("p", value) => do return { c with lanes := ← hashNumber value }
  | ("keyid", value) => do discard (paramBytes 8 value); return c
  | ("data", value) => do return { c with data := ← paramBytes 32 value }
  | _ => .error .paramName

/-- Refuses a cost that is too small, or that asks for too many lanes. -/
def Cost.check (c : Cost) : Except HashFlaw Unit :=
  if c.memory < 8 ∨ c.memory < c.lanes * 8 % Nat.pow 2 32 then .error (.paramValue .tooShort)
  else if c.passes = 0 ∨ c.lanes = 0 then .error (.paramValue .tooShort)
  else if 0xffffff < c.lanes then .error (.paramValue .tooLong)
  else .ok ()

/-- The cost that parameters give; what they leave open is as for new hashes. -/
def Cost.ofParams (params : List (String × List Char)) : Except HashFlaw Cost := do
  let c ← params.foldlM Cost.set .standard
  c.check
  return c

/-- The variant of a name. -/
def variantOf : String → Except HashFlaw Argon2.Variant
  | "argon2d" => .ok .d
  | "argon2i" => .ok .i
  | "argon2id" => .ok .id
  | _ => .error .algorithm

/-- The version of a number; without one it is the newest. -/
def versionOf : Option Nat → Except HashFlaw Argon2.Version
  | none | some 19 => .ok .v19
  | some 16 => .ok .v16
  | some _ => .error .version

/-- The bytes of a salt, at least eight. -/
def saltBytes (salt : List Char) : Except HashFlaw (List UInt8) := do
  let bytes ← unpadded 64 salt
  if bytes.length < 8 then throw (.salt .tooShort)
  return bytes

/-- Whether a stored hash belongs to a password. One without a salt or without the hash itself
belongs to none. -/
def accepts (stored : PasswordHash) (password : String) : Except HashFlaw Bool := do
  match stored.salt, stored.output with
  | some salt, some output =>
    let cost ← Cost.ofParams stored.params
    let variant ← variantOf stored.algorithm
    let version ← versionOf stored.version
    let salt ← saltBytes salt
    let params : Argon2.Params :=
      ⟨variant, version, cost.memory, cost.passes, cost.lanes, output.length, cost.data⟩
    return Argon2.hash params (Utf8.encode password) salt == output
  | _, _ => return false

/-- Whether a stored hash, given as text, belongs to a password. -/
def verify (password stored : String) : Except HashFlaw Bool := do
  (← ofText stored).accepts password

/-! ## New hashes -/

/-- Bytes in base64 without padding. -/
def encodeUnpadded (bytes : List UInt8) : String :=
  String.ofList ((Base64.encodeL bytes).filter (· ≠ '='))

/-- The text in front of the salt of a new hash. -/
def newStart : String :=
  let c := Cost.standard
  "$argon2id$v=19$m=" ++ toString c.memory ++ ",t=" ++ toString c.passes ++ ",p=" ++
    toString c.lanes

/-- A new hash of a password with a salt, as text. -/
def create (salt : List UInt8) (password : String) : String :=
  let c := Cost.standard
  let params : Argon2.Params := ⟨.id, .v19, c.memory, c.passes, c.lanes, 32, c.data⟩
  newStart ++ "$" ++ encodeUnpadded salt ++ "$" ++
    encodeUnpadded (Argon2.hash params (Utf8.encode password) salt)

end PasswordHash

end Intranet.Crypto
