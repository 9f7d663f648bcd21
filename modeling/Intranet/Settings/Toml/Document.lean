import Intranet.Settings.Toml.Quoted
import Intranet.Settings.Toml.Scalar
import Intranet.Settings.Toml.Tree

/-!
# TOML documents

A document is read in two steps: its text into statements, which are headers and values under keys,
and the statements into one table.
-/

namespace Intranet.Settings.Toml

/-- A reader of the front of a text. It fails on a text that it does not fit. -/
abbrev Reader := StateT (List Char) Option

namespace Reader

/-- What a function reads from the front of a text. -/
def of {α : Type} (read : List Char → Option (α × List Char)) : Reader α := read

/-- The first character, if there is one. It is not taken. -/
def peek : Reader (Option Char) := do return (← get).head?

/-- Takes characters as long as they are of a kind. -/
def takeWhile (kind : Char → Bool) : Reader (List Char) :=
  of fun cs => some (cs.takeWhile kind, cs.dropWhile kind)

/-- Takes a character if it comes next. -/
def take? (c : Char) : Reader Bool :=
  of fun cs => if cs.head? = some c then some (true, cs.tail) else some (false, cs)

/-- Takes a character, which has to come next. -/
def take (c : Char) : Reader Unit :=
  of fun cs => if cs.head? = some c then some ((), cs.tail) else none

/-- Passes over blanks within a line. -/
def spaces : Reader Unit := do let _ ← takeWhile isSpace

/-- Passes over a comment, if there is one. -/
def comment : Reader Unit := do
  if ← take? '#' then let _ ← takeWhile isPlain

/-- Takes the end of a line or of the text. -/
def lineEnd : Reader Unit :=
  of fun
    | [] => some ((), [])
    | '\n' :: rest => some ((), rest)
    | '\r' :: '\n' :: rest => some ((), rest)
    | _ => none

/-- What may follow a statement on its line. -/
def restOfLine : Reader Unit := do spaces; comment; lineEnd

/-- Passes over blanks, comments and ends of lines, at most as many lines as given. -/
def filler : Nat → Reader Unit
  | 0 => spaces
  | lines + 1 => do
    spaces
    match ← peek with
    | some '#' | some '\n' | some '\r' => comment; lineEnd; filler lines
    | _ => return

/-- Passes over blanks, comments and ends of lines. -/
def gap : Reader Unit := do filler (← get).length

end Reader

open Reader

/-! ## Keys -/

/-- A character of a key without quotes. -/
def isKeyChar (c : Char) : Bool := c.isAlphanum || c = '_' || c = '-'

/-- A name in a key: plain, or a string within a line. -/
def keyPart : Reader String := do
  match ← peek with
  | some '"' | some '\'' => of lineString?
  | _ =>
    let name ← takeWhile isKeyChar
    if name.isEmpty then failure
    return String.ofList name

/-- Names between points, blanks around each, at most as many as given. -/
def keyParts : Nat → Reader (List String)
  | 0 => failure
  | parts + 1 => do
    spaces
    let name ← keyPart
    spaces
    if ← take? '.' then return name :: (← keyParts parts)
    return [name]

/-- The largest count of names in a key, and of lists and tables that are open at once. -/
def maxDepth : Nat := 79

/-- A key: the names before its last one, and the last one. -/
def key : Reader (List String × String) := do
  let names ← keyParts maxDepth
  match names.getLast? with
  | some name => return (names.dropLast, name)
  | none => failure

/-! ## Values -/

/-- A value without quotes. A date and a time of day may have one blank between them. -/
def word : Reader Value := do
  let first ← takeWhile isWordChar
  match date? first, ← get with
  | some _, ' ' :: c :: _ =>
    if Decimal.isDigit c then
      let _ ← takeWhile (· = ' ')
      let second ← takeWhile isWordChar
      of fun rest => (word? (first ++ ' ' :: second)).map (·, rest)
    else of fun rest => (word? first).map (·, rest)
  | _, _ => of fun rest => (word? first).map (·, rest)

/-- The items of a list up to its end, at most as many as given. -/
def items (one : Reader Value) : Nat → Reader (List Value)
  | 0 => failure
  | count + 1 => do
    gap
    if ← take? ']' then return []
    let value ← one
    gap
    if ← take? ',' then return value :: (← items one count)
    take ']'
    return [value]

/-- A key and its value. -/
def pair (one : Reader Value) : Reader ((List String × String) × Value) := do
  let k ← key
  take '='
  spaces
  return (k, ← one)

/-- The pairs of a table in braces up to its end, at most as many as given. -/
def pairs (one : Reader Value) : Nat → Reader (List ((List String × String) × Value))
  | 0 => failure
  | count + 1 => do
    let p ← pair one
    spaces
    if ← take? ',' then return p :: (← pairs one count)
    take '\x7d'
    return [p]

/-- A table in braces, after the opening one. -/
def inlineTable (one : Reader Value) : Reader Value := do
  spaces
  if ← take? '\x7d' then return .table []
  let ps ← pairs one (← get).length
  let fields ← liftM (ps.foldlM (fun b (k, value) => Branch.addValue k.1 k.2 value b) [])
  return .table (Branch.toTable fields)

/-- A value, given how to read the values inside it; without that it may not open a list or a
table. -/
def valueWith (inner : Option (Reader Value)) : Reader Value := do
  match ← peek with
  | some '"' | some '\'' => return .str (← of string?)
  | some '[' =>
    take '['
    let one ← liftM inner
    return .list (← items one (← get).length)
  | some '\x7b' =>
    take '\x7b'
    let one ← liftM inner
    inlineTable one
  | _ => word

/-- A value in which at most the given number of lists and tables are open at once. -/
def value : Nat → Reader Value
  | 0 => valueWith none
  | depth + 1 => valueWith (some (value depth))

/-! ## Statements -/

/-- What a document says, one after the other. -/
inductive Statement where
  /-- A header: what follows belongs to the table under this key. -/
  | header (path : List String) (name : String)
  /-- A header of an array of tables: what follows belongs to a new table of the array. -/
  | arrayHeader (path : List String) (name : String)
  /-- A value under a key. -/
  | entry (path : List String) (name : String) (value : Value)

/-- A statement, up to the end of its line. -/
def statement : Reader Statement := do
  let s ← (do
    if ← take? '[' then
      if ← take? '[' then
        let (path, name) ← key
        take ']'
        take ']'
        return .arrayHeader path name
      else
        let (path, name) ← key
        take ']'
        return .header path name
    else
      let ((path, name), value) ← pair (value maxDepth)
      return .entry path name value)
  restOfLine
  return s

/-- The statements of a text, at most as many as given. -/
def statements : Nat → Reader (List Statement)
  | 0 => failure
  | count + 1 => do
    gap
    match ← peek with
    | none => return []
    | some _ => return (← statement) :: (← statements count)

/-- What has been built of a document, and the header that is in force. -/
structure Progress where
  root : Branch
  header : List String

/-- Carries a statement out. -/
def Progress.carryOut (p : Progress) : Statement → Option Progress
  | .header path name => do
    return ⟨← Branch.openTable path name p.root, path ++ [name]⟩
  | .arrayHeader path name => do
    return ⟨← Branch.addTable path name p.root, path ++ [name]⟩
  | .entry path name value => do
    return ⟨← Branch.within p.header (Branch.addValue path name value) p.root, p.header⟩

/-- The table that a text stands for. A byte order mark at its start is passed over. -/
def parse? (text : String) : Option Table := do
  let cs := match text.toList with
    | '\uFEFF' :: rest => rest
    | cs => cs
  let (found, _) ← (statements (cs.length + 1)).run cs
  let done ← found.foldlM Progress.carryOut ⟨[], []⟩
  return Branch.toTable done.root

end Intranet.Settings.Toml
