import Intranet.Database.Problem
import Intranet.Database.Schema
import Intranet.Journal
import Intranet.Settings.Basic
import Intranet.Text.Letter

/-!
# Connections

What a connection to the database starts with, and the statements that the portal sends before it
serves its first request. The path on which tables are looked up is an option of the connection.
-/

namespace Intranet.Database

/-! ## The start of a connection -/

/-- The setting for the path on which tables are looked up. -/
def searchPathSetting : String := "search_path"

/-- A text inside an option: blanks and backslashes get a backslash in front. -/
def escapeOptionL (cs : List Char) : List Char :=
  cs.flatMap fun c => if c = ' ' ∨ c = '\\' then ['\\', c] else [c]

/-- The option that gives a setting a value. -/
def optionText (name value : String) : String :=
  "-c " ++ String.ofList (escapeOptionL (name ++ "=" ++ value).toList)

/-- What a connection starts with. -/
structure Startup where
  user : String
  database : String
  options : String
  /-- The password that is given when it is asked for. -/
  password : Option String
  deriving DecidableEq, Repr

/-- What connections start with under given settings. -/
def Startup.ofSettings (d : Settings.Database) : Startup where
  user := d.username
  database := d.database
  options := optionText searchPathSetting d.schema
  password := if d.password.isEmpty then none else some d.password

/-! ## Preparing the database -/

/-- What preparing the database leaves behind: the statements that were sent, and lines of the
journal. -/
structure Preparation where
  sent : List String
  journal : List Line
  deriving DecidableEq, Repr

/-- Work on the database that it may refuse. -/
abbrev Preparing (α : Type) : Type := ExceptT Problem (StateM Preparation) α

/-- Sends a statement. Whether it is refused, and with which message, depends on the number of
statements before it. -/
def send (refusal : Nat → Option String) (statement : String) : Preparing Unit := do
  let p ← get
  set { p with sent := p.sent ++ [statement] }
  match refusal p.sent.length with
  | some message => throw (.reported message)
  | none => pure ()

/-- Prepares the database for a schema. The index may be refused. -/
def prepare (refusal : Nat → Option String) (schema : String) : Preparing Unit := do
  (setUpStatements schema).forM (send refusal)
  tryCatch (send refusal createDepartmentIndex) fun problem =>
    modify fun p => { p with
      journal := p.journal ++
        [⟨.warn, "Failed to create index idx_users_department: " ++ problem.message⟩] }

/-- The statement that tells whether the database answers. -/
def pingStatement : String := "SELECT 1"

/-! ## How the server reads options and names -/

/-- A blank to the server. -/
def isServerBlank (c : Char) : Bool := c = ' ' || ('\t' ≤ c && c ≤ '\r')

/-- The words of the options of a connection, given the word that is being read in reverse. Blanks
part words, and a backslash takes the next character as it is. -/
def optionWords : List Char → List Char → List (List Char)
  | word, [] => if word.isEmpty then [] else [word.reverse]
  | word, '\\' :: c :: rest => optionWords (c :: word) rest
  | word, c :: rest =>
    if isServerBlank c then
      if word.isEmpty then optionWords [] rest else word.reverse :: optionWords [] rest
    else optionWords (c :: word) rest

/-- The settings that words give, each after the word `-c`. -/
def settingsOfWords : List (List Char) → List (List Char × List Char)
  | ['-', 'c'] :: setting :: rest =>
    match setting.span (· ≠ '=') with
    | (name, _ :: value) => (name, value) :: settingsOfWords rest
    | (_, []) => settingsOfWords rest
  | _ :: rest => settingsOfWords rest
  | [] => []

/-- The value of a setting in options, if it is given. The last one counts. -/
def settingOf? (name : String) (options : String) : Option String :=
  ((settingsOfWords (optionWords [] options.toList)).filter (·.1 = name.toList)).getLast?.map
    fun setting => String.ofList setting.2

/-- An identifier in double quotes, after the opening one: its characters with doubled quotes
undone, and what follows the closing quote. -/
def quotedIdent? : List Char → Option (List Char × List Char)
  | [] => none
  | '"' :: '"' :: rest => (quotedIdent? rest).map fun (ident, after) => ('"' :: ident, after)
  | c :: rest =>
    if c = '"' then some ([], rest)
    else (quotedIdent? rest).map fun (ident, after) => (c :: ident, after)

/-- A character that an identifier without quotes goes on with. -/
def isBareChar (c : Char) : Bool := c ≠ ',' && !isServerBlank c

/-- The identifier that a text starts with, and what follows it: what is between quotes as it is,
or else what stands before the next comma or blank, with its letters made small. -/
def identFront? : List Char → Option (List Char × List Char)
  | '"' :: rest => quotedIdent? rest
  | cs =>
    if (cs.takeWhile isBareChar).isEmpty then none
    else some ((cs.takeWhile isBareChar).map Text.lowerChar, cs.dropWhile isBareChar)

/-- The closing quote is no part of the identifier. -/
theorem length_quotedIdent? {cs ident after : List Char}
    (h : quotedIdent? cs = some (ident, after)) : ident.length + after.length < cs.length := by
  fun_induction quotedIdent? cs generalizing ident after with
  | case1 => cases h
  | case2 rest ih =>
    obtain ⟨⟨ident, after⟩, hrest, heq⟩ := Option.map_eq_some_iff.1 h
    cases heq
    have := ih hrest
    simp only [List.length_cons]
    omega
  | case3 rest =>
    cases h
    simp only [List.length_nil, List.length_cons]
    omega
  | case4 c rest _ _ ih =>
    obtain ⟨⟨ident, after⟩, hrest, heq⟩ := Option.map_eq_some_iff.1 h
    cases heq
    have := ih hrest
    simp only [List.length_cons]
    omega

/-- What the server takes at once of a statement. -/
inductive Lexeme where
  /-- A character outside of double quotes. -/
  | char (c : Char)
  /-- An identifier in double quotes, with what it stands for. -/
  | ident (name : String)
  deriving DecidableEq, Repr

/-- An identifier takes something of the text, and no character stands for two. -/
theorem length_identFront? {cs ident after : List Char}
    (h : identFront? cs = some (ident, after)) :
    ident.length + after.length ≤ cs.length ∧ after.length < cs.length := by
  unfold identFront? at h
  split at h
  · have := length_quotedIdent? h
    simp only [List.length_cons]
    omega
  · split at h
    · cases h
    · next hident =>
      cases h
      rw [List.isEmpty_iff, ← ne_eq, ← List.length_pos_iff] at hident
      have hparts :=
        congrArg List.length (List.takeWhile_append_dropWhile (p := isBareChar) (l := cs))
      rw [List.length_append] at hparts
      rw [List.length_map]
      omega

/-- What follows an identifier and the blanks around it is shorter. -/
theorem length_behindIdent {cs ident after rest : List Char} {c : Char}
    (hfront : identFront? (cs.dropWhile isServerBlank) = some (ident, after))
    (hafter : after.dropWhile isServerBlank = c :: rest) : rest.length < cs.length := by
  have h₁ := (List.dropWhile_suffix isServerBlank (l := cs)).length_le
  have h₂ := (List.dropWhile_suffix isServerBlank (l := after)).length_le
  have h₃ := (length_identFront? hfront).2
  rw [hafter, List.length_cons] at h₂
  omega

/-- The identifiers of a list, with commas between them and blanks around them. -/
def identList? (cs : List Char) : Option (List (List Char)) :=
  match hfront : identFront? (cs.dropWhile isServerBlank) with
  | none => none
  | some (ident, after) =>
    match hafter : after.dropWhile isServerBlank with
    | [] => some [ident]
    | c :: rest =>
      have := length_behindIdent hfront hafter
      if c = ',' then (identList? rest).map (ident :: ·) else none
termination_by cs.length

/-- The schemas of a search path, in order. A blank path has none, and `$user` is a name like any
other. -/
def searchPath? (value : String) : Option (List String) :=
  if value.toList.all isServerBlank then some []
  else (identList? value.toList).map (·.map String.ofList)

/-- The schemas on the search path that a connection starts with. -/
def Startup.searchPath? (s : Startup) : Option (List String) :=
  (settingOf? searchPathSetting s.options).bind Database.searchPath?

/-- The schema that a statement creates: its name is all that follows the words in front of it. -/
def createdSchema? (statement : String) : Option String :=
  let words := createSchemaWords.toList
  if words.isPrefixOf statement.toList then
    match identFront? (statement.toList.drop words.length) with
    | some (ident, []) => some (String.ofList ident)
    | _ => none
  else none

end Intranet.Database
