import Intranet.Number.Shortest
import Intranet.Text.Quoted

/-!
# Why JSON text was not accepted

A text can be malformed, break off early, or be well formed but of another shape than the reader
wants. A failure says where it was noticed and which member or item was being read.
-/

namespace Intranet.Json

/-- Malformed or unfinished text. -/
inductive Malformed where
  | endInArray
  | endInObject
  | endInString
  | endInValue
  | expectedColon
  | expectedCommaOrBracket
  | expectedCommaOrBrace
  | expectedWord
  | expectedValue
  | badEscape
  | badNumber
  | numberTooLarge
  | badUnicode
  | rawControl
  | nameNotString
  | loneSurrogate
  | trailingComma
  | trailingCharacters
  | endInSurrogatePair
  | tooDeep
  deriving DecidableEq, Repr

/-- What a reader that wanted something else came upon. -/
inductive Found where
  | null
  | bool (b : Bool)
  | int (n : Int)
  | float (d : Double)
  | text (s : String)
  | array
  | object
  deriving DecidableEq, Repr

/-- Well-formed text of the wrong shape. -/
inductive Mismatch where
  | kind (found : Found) (expected : String)
  | value (found : Found) (expected : String)
  | length (found : Nat) (expected : String)
  | missing (field : String)
  | duplicate (field : String)
  | content (reason : String)
  deriving DecidableEq, Repr

/-- Why a text was not accepted. -/
inductive Cause where
  | malformed (m : Malformed)
  | mismatch (m : Mismatch)
  deriving DecidableEq, Repr

/-- The three kinds of causes. -/
inductive Category where
  /-- Not JSON. -/
  | malformed
  /-- JSON of another shape. -/
  | data
  /-- The beginning of JSON. -/
  | unfinished
  deriving DecidableEq, Repr

/-- One step towards the place of a failure. -/
inductive Step where
  | member (name : String)
  | item (index : Nat)
  /-- A member whose name was not read. -/
  | unnamed
  deriving DecidableEq, Repr

/-- A failure with its line, its column in bytes, and the way to the value that was being read. -/
structure Failure where
  cause : Cause
  line : Nat
  column : Nat
  path : List Step
  deriving DecidableEq, Repr

/-! ## Wording -/

/-- The text for malformed input. -/
def Malformed.message : Malformed → String
  | endInArray => "EOF while parsing a list"
  | endInObject => "EOF while parsing an object"
  | endInString => "EOF while parsing a string"
  | endInValue => "EOF while parsing a value"
  | expectedColon => "expected `:`"
  | expectedCommaOrBracket => "expected `,` or `]`"
  | expectedCommaOrBrace => "expected `,` or `\x7d`"
  | expectedWord => "expected ident"
  | expectedValue => "expected value"
  | badEscape => "invalid escape"
  | badNumber => "invalid number"
  | numberTooLarge => "number out of range"
  | badUnicode => "invalid unicode code point"
  | rawControl => "control character (\\u0000-\\u001F) found while parsing a string"
  | nameNotString => "key must be a string"
  | loneSurrogate => "lone leading surrogate in hex escape"
  | trailingComma => "trailing comma"
  | trailingCharacters => "trailing characters"
  | endInSurrogatePair => "unexpected end of hex escape"
  | tooDeep => "recursion limit exceeded"

/-- The text for a found value. -/
def Found.message : Found → String
  | null => "null"
  | bool b => "boolean `" ++ (if b then "true" else "false") ++ "`"
  | int n => "integer `" ++ toString n ++ "`"
  | float d => "floating point `" ++ d.text ++ "`"
  | text s => "string " ++ Text.quote s
  | array => "sequence"
  | object => "map"

/-- The text for a mismatch. -/
def Mismatch.message : Mismatch → String
  | kind found expected => "invalid type: " ++ found.message ++ ", expected " ++ expected
  | value found expected => "invalid value: " ++ found.message ++ ", expected " ++ expected
  | length found expected => "invalid length " ++ toString found ++ ", expected " ++ expected
  | missing field => "missing field `" ++ field ++ "`"
  | duplicate field => "duplicate field `" ++ field ++ "`"
  | content reason => reason

/-- The text for a cause. -/
def Cause.message : Cause → String
  | malformed m => m.message
  | mismatch m => m.message

/-- The kind of a cause. -/
def Cause.category : Cause → Category
  | malformed .endInArray | malformed .endInObject | malformed .endInString
  | malformed .endInValue => .unfinished
  | malformed _ => .malformed
  | mismatch _ => .data

/-- The text of a failure: its cause and its place. -/
def Failure.message (f : Failure) : String :=
  f.cause.message ++ " at line " ++ toString f.line ++ " column " ++ toString f.column

/-- A step at the beginning of a path. -/
def Step.first : Step → String
  | .member name => name
  | .item i => "[" ++ toString i ++ "]"
  | .unnamed => "?"

/-- A step after others. -/
def Step.later : Step → String
  | .item i => "[" ++ toString i ++ "]"
  | step => "." ++ step.first

/-- A path with points before names. -/
def pathText : List Step → String
  | [] => ""
  | step :: rest => step.first ++ String.join (rest.map Step.later)

/-- The text of a failure with the way to the value before it, where some step of it is known. -/
def Failure.located (f : Failure) : String :=
  if f.path.all (· == .unnamed) then f.message else pathText f.path ++ ": " ++ f.message

end Intranet.Json
