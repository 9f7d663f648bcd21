import Intranet.Text.Blank

/-!
# Files of variables

A file of lines `NAME=value` that gives variables to a process which does not have them yet. Values
may stand in single or double quotes, over several lines too, and may refer to variables by
`$NAME`. The first line that cannot be read ends the reading; what was read before it counts.
-/

namespace Intranet.Settings

/-- Variables of a process, each name once. -/
abbrev Variables := List (String × String)

namespace Variables

/-- The value of a variable. -/
def get? (name : String) (vars : Variables) : Option String :=
  (vars.find? (·.1 = name)).map (·.2)

/-- Adds a variable, unless there is one of that name. -/
def addNew (vars : Variables) (name value : String) : Variables :=
  if (vars.get? name).isSome then vars else vars ++ [(name, value)]

end Variables

namespace Dotenv

/-! ## Lines -/

/-- Where the scan of a line stands. -/
inductive Place where
  | plain
  | blank
  | escape
  | strong
  | strongEscape
  | weak
  | weakEscape
  deriving DecidableEq, Repr

/-- The place after a character outside of quotes. -/
def outside (c : Char) : Place :=
  if c = '\\' then .escape else if c = '"' then .weak else if c = '\'' then .strong else .plain

/-- The place after one more character. -/
def Place.next (c : Char) : Place → Place
  | .plain => if Text.isBlank c && c ≠ '\n' && c ≠ '\r' then .blank else outside c
  | .blank => outside c
  | .escape => .plain
  | .strong => if c = '\\' then .strongEscape else if c = '\'' then .plain else .strong
  | .strongEscape => .strong
  | .weak => if c = '\\' then .weakEscape else if c = '"' then .plain else .weak
  | .weakEscape => .weak

/-- The place at the end of a line, or what stands before the comment that ends it. A number sign
after a blank begins a comment. -/
def scan : Place → List Char → Place ⊕ List Char
  | place, [] => .inl place
  | place, c :: rest =>
    if place = .blank ∧ c = '#' then .inr []
    else (scan (place.next c) rest).map id (c :: ·)

/-- The lines of a text, each with its newline. -/
def linesOf (cs : List Char) : List (List Char) :=
  let parts := cs.splitOn '\n'
  parts.dropLast.map (· ++ ['\n']) ++ (parts.getLast?.filter (!·.isEmpty)).toList

/-- A line without its newline. -/
def chomp (line : List Char) : List Char :=
  match line.reverse with
  | '\n' :: '\r' :: rest => rest.reverse
  | '\n' :: rest => rest.reverse
  | _ => line

/-- Joins the lines over which quotes extend, on top of the part already joined. Comments are taken
off. `none` stands for a text that ends in the middle. -/
def join : Place → List Char → List (List Char) → List (Option (List Char))
  | place, _, [] => if place = .plain then [] else [none]
  | place, before, line :: rest =>
    if before.isEmpty ∧ (Text.trimStartL line).head? = some '#' then join .plain [] rest
    else
      match scan place line with
      | .inr kept => some (before ++ kept) :: join .plain [] rest
      | .inl .plain => some (chomp (before ++ line)) :: join .plain [] rest
      | .inl place => join place (before ++ line) rest

/-! ## Values -/

/-- Where the reading of a value stands. The flag tells whether it is between double quotes. -/
inductive Mode where
  | text (weak : Bool)
  | escape (weak : Bool)
  | strong
  /-- In the name of a variable, given in reverse. -/
  | name (weak : Bool) (reversed : List Char)
  /-- In the name of a variable in braces, given in reverse. -/
  | braced (weak : Bool) (reversed : List Char)
  /-- After the value, where only blanks and a comment may stand. -/
  | ended
  | comment
  deriving DecidableEq, Repr

/-- The value of the variable whose name is given in reverse; no value counts as an empty one. -/
def valueOf (vars : Variables) (reversed : List Char) : List Char :=
  ((vars.get? (String.ofList reversed.reverse)).getD "").toList

/-- Takes one more character of a value, on top of the text already read, which is kept in
reverse. -/
def step (vars : Variables) (c : Char) : Mode × List Char → Option (Mode × List Char)
  | (.ended, out) =>
    if c = ' ' ∨ c = '\t' then some (.ended, out)
    else if c = '#' then some (.comment, out) else none
  | (.comment, out) => some (.comment, out)
  | (.escape weak, out) =>
    if c ∈ ['\\', '\'', '"', '$', ' '] then some (.text weak, c :: out)
    else if c = 'n' then some (.text weak, '\n' :: out)
    else none
  | (.strong, out) => if c = '\'' then some (.text false, out) else some (.strong, c :: out)
  | (.name weak reversed, out) =>
    if c.isAlphanum then some (.name weak (c :: reversed), out)
    else if c = '\x7b' ∧ reversed = [] then some (.braced weak [], out)
    else
      let out := (valueOf vars reversed).reverse ++ out
      if c = '$' then some (.name weak [], out) else some (.text weak, c :: out)
  | (.braced weak reversed, out) =>
    if c = '\x7d' then some (.text weak, (valueOf vars reversed).reverse ++ out)
    else some (.braced weak (c :: reversed), out)
  | (.text weak, out) =>
    if c = '$' then some (.name weak [], out)
    else if c = '\\' then some (.escape weak, out)
    else if c = '"' then some (.text !weak, out)
    else if weak then some (.text weak, c :: out)
    else if c = '\'' then some (.strong, out)
    else if c = ' ' ∨ c = '\t' then some (.ended, out)
    else some (.text weak, c :: out)

/-- The value at its end; quotes and braces have to be closed. -/
def finish (vars : Variables) : Mode × List Char → Option (List Char)
  | (.name false reversed, out) => some (out.reverse ++ valueOf vars reversed)
  | (.text false, out) | (.escape false, out) | (.ended, out) | (.comment, out) => some out.reverse
  | _ => none

/-- The value that a text stands for. -/
def value? (vars : Variables) (cs : List Char) : Option String :=
  ((cs.foldlM (fun state c => step vars c state) (.text false, [])).bind (finish vars)).map
    String.ofList

/-! ## Entries -/

/-- A name at the front of a text, and what follows. -/
def name? (cs : List Char) : Option (String × List Char) :=
  match cs with
  | [] => none
  | c :: _ =>
    if c.isAlpha || c = '_' then
      let isNameChar (c : Char) := c.isAlphanum || c = '_' || c = '.'
      some (String.ofList (cs.takeWhile isNameChar), Text.trimStartL (cs.dropWhile isNameChar))
    else none

/-- The name that a line gives a value, and what follows the equals sign. The word `export` in
front of the name is passed over. -/
def assignment? (cs : List Char) : Option (String × List Char) := do
  match ← name? cs with
  | (name, '=' :: rest) => return (name, Text.trimStartL rest)
  | ("export", rest) =>
    match ← name? rest with
    | (name, '=' :: rest) => return (name, Text.trimStartL rest)
    | _ => none
  | _ => none

/-- A line without anything to read. -/
def isEmptyLine (cs : List Char) : Bool := cs.isEmpty || cs.head? = some '#'

/-- Adds the variable of a line, if it gives one. -/
def addLine (vars : Variables) (line : List Char) : Option Variables := do
  let line := Text.trimL line
  if isEmptyLine line then return vars
  let (name, rest) ← assignment? line
  let value ← if isEmptyLine rest then pure "" else value? vars rest
  return vars.addNew name value

/-- Adds the variables of lines up to the first one that cannot be read. -/
def addLines (vars : Variables) : List (Option (List Char)) → Variables
  | [] => vars
  | line :: rest =>
    match line.bind (addLine vars) with
    | some vars => addLines vars rest
    | none => vars

/-- Adds the variables of a file. A byte order mark at its start is passed over. -/
def load (vars : Variables) (text : String) : Variables :=
  let cs := match text.toList with
    | '\uFEFF' :: rest => rest
    | cs => cs
  addLines vars (join .plain [] (linesOf cs))

end Dotenv

end Intranet.Settings
