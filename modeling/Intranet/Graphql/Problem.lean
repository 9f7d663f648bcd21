/-!
# Why a GraphQL document was rejected

A document is either not well formed or asks for something that is not executed here. Messages name
the first byte of an unwanted character.
-/

namespace Intranet.Graphql

/-- A part of a document that is only passed over: what stands between two brackets. -/
inductive Group where
  /-- The variable definitions of the operation. -/
  | header
  /-- The selection below the root field. -/
  | selection
  /-- Variable definitions or arguments in the header of a later definition. -/
  | laterHeader
  /-- The selection of a later definition. -/
  | laterSelection
  deriving DecidableEq, Repr

namespace Group

/-- The character that opens a group. -/
def opening : Group → Char
  | header | laterHeader => '('
  | selection | laterSelection => '\x7b'

/-- The character that closes a group. -/
def closing : Group → Char
  | header | laterHeader => ')'
  | selection | laterSelection => '\x7d'

theorem opening_ne_quote (g : Group) : g.opening ≠ '"' := by cases g <;> decide

theorem closing_ne_quote (g : Group) : g.closing ≠ '"' := by cases g <;> decide

theorem closing_ne_opening (g : Group) : g.closing ≠ g.opening := by cases g <;> decide

end Group

/-- What is wrong with the grammar of a document. -/
inductive Malformed where
  | unexpectedName (name : String)
  | unexpectedChar (found : Char)
  | unexpectedEnd
  /-- The document ends in a group in which so many opening characters still wait for their closing
  one. -/
  | openGroup (group : Group) (depth : Nat)
  | expected (wanted : Char) (found : Option Char)
  | tooDeep
  | badNumber (text : String)
  /-- The document ends in a string. -/
  | openString
  /-- The line ends in a string. -/
  | brokenString
  | badCodePoint
  | badEscape (found : Char)
  deriving DecidableEq, Repr

/-- What a well-formed document may not ask for. -/
inductive Unsupported where
  | subscription
  | rootFragment
  | secondField (first : String)
  deriving DecidableEq, Repr

/-- Why a document was rejected before anything ran. -/
inductive Problem where
  | malformed (m : Malformed)
  | unsupported (u : Unsupported)
  deriving DecidableEq, Repr

/-- The deepest nesting of lists and objects in a value. -/
def maxDepth : Nat := 64

/-- A character as messages show it: its first byte, taken as a code point. -/
def shown (c : Char) : Char :=
  match String.utf8EncodeChar c with
  | b :: _ => Char.ofNat b.toNat
  | [] => c

/-- The text for a malformed document. -/
def Malformed.message : Malformed → String
  | unexpectedName name => "Syntax Error: Unexpected Name \"" ++ name ++ "\"."
  | unexpectedChar c =>
    "Syntax Error: Unexpected character \"" ++ String.singleton (shown c) ++ "\"."
  | unexpectedEnd | openGroup _ _ => "Syntax Error: Unexpected <EOF>."
  | expected wanted found =>
    "Syntax Error: Expected \"" ++ String.singleton wanted ++ "\", found " ++
      (match found with
        | some c => "\"" ++ String.singleton (shown c) ++ "\"."
        | none => "<EOF>.")
  | tooDeep => "Syntax Error: Values nested deeper than " ++ toString maxDepth ++ " levels."
  | badNumber text => "Syntax Error: Invalid number \"" ++ text ++ "\"."
  | openString | brokenString => "Syntax Error: Unterminated string."
  | badCodePoint => "Syntax Error: Invalid Unicode escape."
  | badEscape c =>
    "Syntax Error: Invalid character escape \"\\" ++ String.singleton (shown c) ++ "\"."

/-- The text for an unsupported document. -/
def Unsupported.message : Unsupported → String
  | subscription => "Subscriptions are not supported"
  | rootFragment => "Fragments are not supported on the root selection"
  | secondField first =>
    "Only one root field per operation is supported, found another after \"" ++ first ++ "\"."

/-- The text that clients see. -/
def Problem.message : Problem → String
  | malformed m => m.message
  | unsupported u => u.message

/-- The code that clients see. -/
def Problem.code : Problem → String
  | malformed _ => "GRAPHQL_PARSE_FAILED"
  | unsupported _ => "GRAPHQL_VALIDATION_FAILED"

end Intranet.Graphql
