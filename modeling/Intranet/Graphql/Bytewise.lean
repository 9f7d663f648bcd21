import Intranet.Graphql.Document
import Intranet.Text.Utf8

/-!
# Reading a document by its bytes

The reader of `Document` takes characters off a list. This one has the bytes of a text and a place
among them, which it moves as far as it likes: it passes over comments, groups and strings byte by
byte, cuts names and numbers out of the text, counts brackets, and gives up what it does not read.

What could go wrong on the way is a breach of its own, and each step that could commit one is
checked when it is made. So a reading that ends without a breach kept to the text all the way.
-/

namespace Intranet.Graphql.Bytewise

/-! ## Readers -/

/-- What a reader must not do. -/
inductive Breach where
  /-- The place is moved past the end of the text. -/
  | pastEnd
  /-- A part of the text is taken whose ends do not stand between characters. -/
  | insideCharacter
  /-- A loop goes on, or a value is read inside another one, before a byte was taken. -/
  | standstill
  /-- The count of open brackets is lowered below zero. -/
  | underflow
  /-- Values are read inside each other on more levels than there are. -/
  | tooManyLevels
  deriving DecidableEq, Repr

/-- The end of a reading that gives nothing. -/
inductive Stop where
  | breach (b : Breach)
  /-- The document is refused, with the code and the message that clients see. -/
  | refused (code message : String)
  deriving DecidableEq, Repr

/-- A reader of a text from a place on. -/
def Reader (α : Type) : Type := List UInt8 → Nat → Except Stop (α × Nat)

namespace Reader

variable {α β : Type}

/-- Reads nothing. -/
protected def pure (a : α) : Reader α := fun _ pos => .ok (a, pos)

/-- One reading after another. -/
protected def bind (r : Reader α) (f : α → Reader β) : Reader β := fun text pos =>
  match r text pos with
  | .ok (a, pos) => f a text pos
  | .error stop => .error stop

instance : Monad Reader where
  pure := Reader.pure
  bind := Reader.bind

theorem bind_pure (r : Reader α) : r.bind Reader.pure = r := by
  funext text pos
  unfold Reader.bind
  cases r text pos <;> rfl

theorem bind_bind {γ : Type} (r : Reader α) (f : α → Reader β) (g : β → Reader γ) :
    (r.bind f).bind g = r.bind fun a => (f a).bind g := by
  funext text pos
  unfold Reader.bind
  cases r text pos <;> rfl

instance : LawfulMonad Reader := .mk' Reader bind_pure (fun _ _ => rfl) bind_bind

end Reader

variable {α σ : Type}

/-- Ends with a breach. -/
def breach (b : Breach) : Reader α := fun _ _ => .error (.breach b)

/-- Refuses a document that is not well formed. -/
def malformed (message : String) : Reader α := fun _ _ =>
  .error (.refused "GRAPHQL_PARSE_FAILED" ("Syntax Error: " ++ message))

/-- Refuses a document that asks for too much. -/
def unsupported (message : String) : Reader α := fun _ _ =>
  .error (.refused "GRAPHQL_VALIDATION_FAILED" message)

/-- The place. -/
def place : Reader Nat := fun _ pos => .ok (pos, pos)

/-- The next byte. -/
def peek : Reader (Option UInt8) := fun text pos => .ok (text[pos]?, pos)

/-- Moves the place on, within the text. -/
def advance (n : Nat) : Reader Unit := fun text pos =>
  if pos + n ≤ text.length then .ok ((), pos + n) else .error (.breach .pastEnd)

/-- Whether a place stands between two characters or at an end of the text. -/
def isBoundary (text : List UInt8) (pos : Nat) : Bool :=
  pos = 0 || pos = text.length || text[pos]?.any fun b => !Utf8.isTail b

/-- The part of the text between two places, if both stand between characters. -/
def slice? (start stop : Nat) : Reader (Option String) := fun text pos =>
  if start ≤ stop ∧ isBoundary text start ∧ isBoundary text stop then
    .ok (Utf8.decode? ((text.drop start).take (stop - start)), pos)
  else .ok (none, pos)

/-- The part of the text between two places, which have to stand between characters. -/
def slice (start stop : Nat) : Reader String := do
  match ← slice? start stop with
  | some s => pure s
  | none => breach .insideCharacter

/-- What is left of the text; the place has to stand between characters. -/
def rest : Reader (List UInt8) := fun text pos =>
  if isBoundary text pos then .ok (text.drop pos, pos) else .error (.breach .insideCharacter)

/-- Whether the given text comes next. -/
def startsWith (s : String) : Reader Bool := do
  return (Utf8.encode s).isPrefixOf (← rest)

/-- Makes a round after the other until one is the last. A round after which another one follows
has to have moved the place on, within the text. -/
def loop (round : σ → Reader (ForInStep σ)) (s : σ) : Reader σ := fun text pos =>
  match round s text pos with
  | .error stop => .error stop
  | .ok (.done s, pos') => .ok (s, pos')
  | .ok (.yield s, pos') =>
    if pos < pos' ∧ pos' ≤ text.length then loop round s text pos'
    else .error (.breach .standstill)
termination_by text pos => text.length - pos

/-- Reads on from behind a place. -/
def behind (start : Nat) (r : Reader α) : Reader α := do
  if start < (← place) then r else breach .standstill

/-- What is read, unless it is refused. -/
def attempt (r : Reader α) : Reader (Option α) := fun text pos =>
  match r text pos with
  | .ok (a, pos) => .ok (some a, pos)
  | .error (.refused _ _) => .ok (none, pos)
  | .error (.breach b) => .error (.breach b)

/-- A byte as a character with the same code. -/
def latin (b : UInt8) : Char := Char.ofNat b.toNat

/-- Refuses a byte. -/
def unexpected (b : UInt8) : Reader α :=
  malformed ("Unexpected character \"" ++ String.singleton (latin b) ++ "\".")

/-- Refuses the end of the text. -/
def unexpectedEnd : Reader α := malformed "Unexpected <EOF>."

/-! ## What does not count, punctuation and names -/

/-- One byte of a line. -/
def lineRound : Reader (ForInStep Unit) := do
  match ← peek with
  | none => return .done ()
  | some b =>
    advance 1
    if latin b = '\n' then return .done () else return .yield ()

/-- Past the end of a line. -/
def skipLine : Reader Unit := loop (fun _ => lineRound) ()

/-- A blank, a comma, a byte order mark or a comment. -/
def ignoredRound : Reader (ForInStep Unit) := do
  match ← peek with
  | none => return .done ()
  | some b =>
    if latin b ∈ [' ', '\t', '\n', '\r', ','] then do
      advance 1
      return .yield ()
    else if latin b = '#' then do
      skipLine
      return .yield ()
    else if ← startsWith "\ufeff" then do
      advance (Utf8.encode "\ufeff").length
      return .yield ()
    else return .done ()

/-- Past everything that does not count. -/
def skipIgnored : Reader Unit := loop (fun _ => ignoredRound) ()

/-- Takes a character if it comes next, and tells whether it did. -/
def eat (c : Char) : Reader Bool := do
  skipIgnored
  if (← peek).map latin = some c then do
    advance 1
    return true
  else return false

/-- Takes a character that has to come next. -/
def expect (c : Char) : Reader Unit := do
  if ← eat c then return ()
  else
    match ← peek with
    | some found =>
      malformed ("Expected \"" ++ String.singleton c ++ "\", found \"" ++
        String.singleton (latin found) ++ "\".")
    | none => malformed ("Expected \"" ++ String.singleton c ++ "\", found <EOF>.")

/-- One character of a kind. -/
def whileRound (p : Char → Bool) : Reader (ForInStep Unit) := do
  if (← peek).any (p ∘ latin) then do
    advance 1
    return .yield ()
  else return .done ()

/-- Past the characters of a kind. -/
def passWhile (p : Char → Bool) : Reader Unit := loop (fun _ => whileRound p) ()

/-- A name. -/
def name : Reader String := do
  skipIgnored
  let start ← place
  match ← peek with
  | none => unexpectedEnd
  | some b =>
    if isNameStart (latin b) then do
      advance 1
      passWhile isNameChar
      slice start (← place)
    else unexpected b

/-! ## Strings and numbers -/

/-- How many bytes stand before the next three quotes. -/
def blockEnd? : List UInt8 → Option Nat
  | [] => none
  | b :: bytes =>
    if (Utf8.encode "\"\"\"").isPrefixOf (b :: bytes) then some 0
    else (blockEnd? bytes).map (· + 1)

/-- The character whose code point the text gives, in hexadecimal digits behind a plus sign or
not. -/
def pointed? (s : String) : Option Char :=
  (match s.toList with
    | '+' :: digits => Hex.natL? digits
    | digits => Hex.natL? digits).bind charOf?

/-- The character that is written behind a backslash, on top of the bytes already read. -/
def escape (out : List UInt8) : Reader (ForInStep (List UInt8)) := do
  match ← peek with
  | none => malformed "Unterminated string."
  | some b =>
    advance 1
    if latin b = 'u' then do
      let start ← place
      match (← slice? start (start + 4)).bind pointed? with
      | some x =>
        advance 4
        return .yield (out ++ String.utf8EncodeChar x)
      | none => malformed "Invalid Unicode escape."
    else
      match escapeLetter? (latin b) with
      | some x => return .yield (out ++ String.utf8EncodeChar x)
      | none =>
        malformed ("Invalid character escape \"\\" ++ String.singleton (latin b) ++ "\".")

/-- What comes next in a string, on top of the bytes already read. -/
def stringRound (out : List UInt8) : Reader (ForInStep (List UInt8)) := do
  match ← peek with
  | none => malformed "Unterminated string."
  | some b =>
    if latin b = '\n' then malformed "Unterminated string."
    else if latin b = '"' then do
      advance 1
      return .done out
    else if latin b = '\\' then do
      advance 1
      escape out
    else do
      advance 1
      return .yield (out ++ [b])

/-- A string on one line, from its opening quote on. -/
def line : Reader String := do
  advance 1
  match Utf8.decode? (← loop stringRound []) with
  | some s => return s
  | none => malformed "Invalid UTF-8 in string."

/-- A block string, from its opening quotes on. -/
def block : Reader String := do
  advance 3
  match blockEnd? (← rest) with
  | none => malformed "Unterminated string."
  | some n =>
    let start ← place
    let s ← slice start (start + n)
    advance (n + 3)
    return s

/-- A string or a block string, from its opening quote on. -/
def string : Reader String := do
  if ← startsWith "\"\"\"" then block else line

/-- A number. -/
def number : Reader Json := do
  let start ← place
  passWhile isNumberChar
  let raw ← slice start (← place)
  if raw.toList.any isFloatMark then
    match Decimal.doubleL? raw.toList with
    | some d => return .float d
    | none => malformed ("Invalid number \"" ++ raw ++ "\".")
  else
    match Decimal.int64L? raw.toList with
    | some n => return .int n
    | none => malformed ("Invalid number \"" ++ raw ++ "\".")

/-! ## Values -/

/-- A closing bracket, or one more value. -/
def itemRound (read : Reader Json) (done : List Json) : Reader (ForInStep (List Json)) := do
  if ← eat ']' then return .done done else return .yield (done ++ [← read])

/-- Values up to a closing bracket. -/
def items (read : Reader Json) : Reader (List Json) := loop (itemRound read) []

/-- A closing character, or one more name with a value, which is put among those already there. -/
def memberRound (read : Reader Json) (close : Char) (done : Members) :
    Reader (ForInStep Members) := do
  if ← eat close then return .done done
  else do
    let key ← name
    expect ':'
    return .yield (Members.insert key (← read) done)

/-- Names with values up to a closing character. -/
def members (read : Reader Json) (close : Char) : Reader Members :=
  loop (memberRound read close) []

/-- What a word stands for: one of the three words of the language, or an enumeration value. -/
def wordOf (word : String) : Json :=
  if word = "true" then .bool true
  else if word = "false" then .bool false
  else if word = "null" then .null
  else .str word

/-- A value that starts with the byte, given how to read the values inside it. -/
def valueFrom (given : Members) (inner : Reader Json) (b : UInt8) : Reader Json := do
  if latin b = '$' then do
    advance 1
    return (Members.get? (← name) given).getD .null
  else if latin b = '"' then return .str (← string)
  else if latin b = '[' then do
    advance 1
    return .arr (← items inner)
  else if latin b = '\x7b' then do
    advance 1
    return .obj (← members inner '\x7d')
  else if latin b = '-' ∨ Decimal.isDigit (latin b) then number
  else if isNameStart (latin b) then return wordOf (← name)
  else unexpected b

/-- A value, inside so many lists and objects, with so many levels left on which values may be read
inside each other. -/
def value (given : Members) : (levels depth : Nat) → Reader Json
  | 0, _ => breach .tooManyLevels
  | levels + 1, depth => do
    let start ← place
    skipIgnored
    match ← peek with
    | none => unexpectedEnd
    | some b =>
      if maxDepth ≤ depth ∧ latin b ∈ ['[', '\x7b'] then
        malformed ("Values nested deeper than " ++ toString maxDepth ++ " levels.")
      else valueFrom given (behind start (value given levels (depth + 1))) b

/-- Arguments, behind their opening parenthesis. -/
def arguments (given : Members) : Reader Members := members (value given (maxDepth + 1) 0) ')'

/-! ## Parts that are passed over -/

/-- What comes next in a group, with so many brackets open. -/
def groupRound (opening closing : Char) (depth : Nat) : Reader (ForInStep Nat) := do
  match ← peek with
  | none => unexpectedEnd
  | some b =>
    if latin b = '"' then do
      let _ ← string
      return .yield depth
    else if latin b = opening then do
      advance 1
      return .yield (depth + 1)
    else if latin b = closing then
      match depth with
      | 0 => breach .underflow
      | depth + 1 => do
        advance 1
        if depth = 0 then return .done 0 else return .yield depth
    else do
      advance 1
      return .yield depth

/-- Past the end of a group whose opening character was taken. -/
def skipGroup (opening closing : Char) : Reader Unit := do
  let _ ← loop (groupRound opening closing) 1

/-- Past the arguments that come next, if there are any. -/
def skipArguments (given : Members) : Reader Unit := do
  if ← eat '(' then do
    let _ ← arguments given
  else return ()

/-- One directive, if one comes next. -/
def directiveRound (given : Members) : Reader (ForInStep Unit) := do
  if ← eat '@' then do
    let _ ← name
    skipArguments given
    return .yield ()
  else return .done ()

/-- Past the directives that come next. -/
def skipDirectives (given : Members) : Reader Unit := loop (fun _ => directiveRound given) ()

/-- What comes next in the header of a later definition. -/
def headerRound : Reader (ForInStep Unit) := do
  skipIgnored
  match ← peek with
  | none => unexpectedEnd
  | some b =>
    if latin b = '\x7b' then return .done ()
    else if latin b = '(' then do
      advance 1
      skipGroup '(' ')'
      return .yield ()
    else if latin b = '"' then do
      let _ ← string
      return .yield ()
    else if isHeaderChar (latin b) then do
      advance 1
      return .yield ()
    else unexpected b

/-- Past the opening brace that ends the header of a later definition. -/
def skipHeader : Reader Unit := do
  loop (fun _ => headerRound) ()
  advance 1

/-- One later definition, or the end of the text. -/
def definitionRound : Reader (ForInStep Unit) := do
  skipIgnored
  match ← peek with
  | none => return .done ()
  | some b =>
    if latin b = '\x7b' then do
      advance 1
      skipGroup '\x7b' '\x7d'
      return .yield ()
    else if isNameStart (latin b) then do
      let word ← name
      if word ∈ definitionWords then do
        skipHeader
        skipGroup '\x7b' '\x7d'
        return .yield ()
      else malformed ("Unexpected Name \"" ++ word ++ "\".")
    else unexpected b

/-- Checks that only definitions follow. -/
def skipDefinitions : Reader Unit := loop (fun _ => definitionRound) ()

/-! ## Documents -/

/-- Past a name, if one comes next. -/
def skipName : Reader Unit := do
  skipIgnored
  if (← peek).any (isNameStart ∘ latin) then do
    let _ ← name
  else return ()

/-- Past a group, if one comes next. -/
def skipOptional (opening closing : Char) : Reader Unit := do
  if ← eat opening then skipGroup opening closing else return ()

/-- The operation that a document starts with; its header is passed over. -/
def operation (given : Members) : Reader Operation := do
  skipIgnored
  if (← peek).map latin = some '\x7b' then return .query
  else do
    let word ← name
    if word = "query" then do
      header
      return .query
    else if word = "mutation" then do
      header
      return .mutation
    else if word = "subscription" then unsupported "Subscriptions are not supported"
    else malformed ("Unexpected Name \"" ++ word ++ "\".")
where
  header : Reader Unit := do
    skipName
    skipOptional '(' ')'
    skipDirectives given

/-- A name, after a colon another one: the first is then an alias. -/
def fieldName : Reader (Option String × String) := do
  let first ← name
  if ← eat ':' then return (some first, ← name) else return (none, first)

/-- The arguments of a field, if it has any. -/
def fieldArguments (given : Members) : Reader Members := do
  if ← eat '(' then arguments given else return []

/-- Whether another selection comes next. -/
def startsSelection : Reader Bool := do
  if (← peek).any (isNameStart ∘ latin) then return true else startsWith "..."

/-- What follows a root field: the end of its operation, and later definitions. -/
def finish (field : RootField) : Reader RootField := do
  skipIgnored
  if ← startsSelection then
    unsupported ("Only one root field per operation is supported, found another after \"" ++
      field.name ++ "\".")
  else do
    expect '\x7d'
    skipDefinitions
    return field

/-- The root field of an operation, from its opening brace on. -/
def rootField (given : Members) (op : Operation) : Reader RootField := do
  expect '\x7b'
  skipIgnored
  if ← startsWith "..." then unsupported "Fragments are not supported on the root selection"
  else do
    let (aliased, field) ← fieldName
    let args ← fieldArguments given
    skipDirectives given
    skipOptional '\x7b' '\x7d'
    finish ⟨op, field, aliased, args⟩

/-- A whole document. -/
def document (given : Members) : Reader RootField := do
  rootField given (← operation given)

/-- The answer to a document, or the breach on the way to it. -/
def parse (text : String) (given : Members) : Except Breach (Except (String × String) RootField) :=
  match document given (Utf8.encode text) 0 with
  | .ok (field, _) => .ok (.ok field)
  | .error (.refused code message) => .ok (.error (code, message))
  | .error (.breach b) => .error b

/-- The operation that the first characters of a document name, or the breach on the way to it. -/
def hint (text : String) : Except Breach (Option Operation) :=
  match first (Utf8.encode text) 0 with
  | .ok (op, _) => .ok op
  | .error (.refused _ _) => .ok none
  | .error (.breach b) => .error b
where
  first : Reader (Option Operation) := do
    skipIgnored
    if (← peek).map latin = some '\x7b' then return some .query
    else do
      let word ← attempt name
      if word = some "query" then return some .query
      else if word = some "mutation" then return some .mutation
      else return none

end Intranet.Graphql.Bytewise
