import Intranet.Graphql.Literal

/-!
# Documents and their root field

An operation runs exactly one root field. Of the first definition, the header, the root field and
its arguments are read; variable definitions and the selection below the root field are passed
over, and later definitions are only checked for balance.
-/

namespace Intranet.Graphql

/-- The operations that are executed. -/
inductive Operation where
  | query
  | mutation
  deriving DecidableEq, Repr

/-- The name of the type that an operation starts from. -/
def Operation.typeName : Operation → String
  | query => "Query"
  | mutation => "Mutation"

/-- The root field as a document writes it. -/
structure Selection where
  operation : Operation
  name : String
  aliased : Option String
  arguments : List (String × Literal)

/-- The root field with the variables filled in. -/
structure RootField where
  operation : Operation
  name : String
  aliased : Option String
  arguments : Members

/-- The name under which the answer is given. -/
def RootField.key (f : RootField) : String := f.aliased.getD f.name

/-- Fills in the variables. -/
def Selection.resolve (given : Members) (s : Selection) : RootField :=
  ⟨s.operation, s.name, s.aliased,
    Members.ofList (s.arguments.map fun (k, l) => (k, l.resolve given))⟩

instance : MonadLift (Except Malformed) (Except Problem) where
  monadLift x := x.mapError .malformed

/-! ## Parts that are passed over -/

set_option linter.unusedVariables false in
/-- Past the end of a group, so many of whose opening characters still wait for their closing one
besides the first. Strings count as one piece. -/
def skipGroup (g : Group) (depth : Nat) (cs : List Char) : Except Malformed (List Char) :=
  match cs with
  | [] => .error (.openGroup g depth)
  | c :: rest =>
    if c = '"' then
      match h : string (c :: rest) with
      | .error e => .error e
      | .ok (_, rest) => skipGroup g depth rest
    else if c = g.opening then skipGroup g (depth + 1) rest
    else if c = g.closing then
      match depth with
      | 0 => .ok rest
      | depth + 1 => skipGroup g depth rest
    else skipGroup g depth rest
termination_by cs.length
decreasing_by
  · exact string_shorter h
  all_goals simp

theorem skipGroup_shorter {g : Group} {depth : Nat} {cs rest : List Char}
    (h : skipGroup g depth cs = .ok rest) : rest.length < cs.length := by
  fun_induction skipGroup g depth cs with
  | case1 => cases h
  | case2 => cases h
  | case3 depth r s r₂ hs ih => have := ih h; have := string_shorter hs; omega
  | case4 depth r _ ih => have := ih h; simp only [List.length_cons]; omega
  | case5 c r => cases h; simp
  | case6 r _ _ depth ih => have := ih h; simp only [List.length_cons]; omega
  | case7 depth c r _ _ _ ih => have := ih h; simp only [List.length_cons]; omega

set_option linter.unusedVariables false in
/-- Past the directives that come next, reading their arguments and forgetting them. -/
def skipDirectives (cs : List Char) : Except Malformed (List Char) :=
  match ha : eat? '@' cs with
  | none => .ok (skipIgnored cs)
  | some rest =>
    match hn : name rest with
    | .error e => .error e
    | .ok (_, rest) =>
      match hp : eat? '(' rest with
      | none => skipDirectives rest
      | some inside =>
        match hg : arguments inside with
        | .error e => .error e
        | .ok (_, rest) => skipDirectives rest
termination_by cs.length
decreasing_by
  · have := eat?_shorter ha
    have := name_shorter hn
    omega
  · have := eat?_shorter ha
    have := name_shorter hn
    have := eat?_shorter hp
    have := arguments_shorter hg
    omega

/-- A character other than an opening one that can stand between the keyword of a later definition
and its braces. -/
def isHeaderChar (c : Char) : Bool :=
  isNameChar c || c = '$' || c = ':' || c = '@' || c = '!' || c = '[' || c = ']' || c = '='

set_option linter.unusedVariables false in
/-- Past the opening brace that ends the header of a later definition. -/
def skipHeader (cs : List Char) : Except Malformed (List Char) :=
  match hs : skipIgnored cs with
  | [] => .error .unexpectedEnd
  | c :: rest =>
    if c = '\x7b' then .ok rest
    else if c = '(' then
      match hg : skipGroup .laterHeader 0 rest with
      | .error e => .error e
      | .ok rest => skipHeader rest
    else if c = '"' then
      match ht : string (c :: rest) with
      | .error e => .error e
      | .ok (_, rest) => skipHeader rest
    else if isHeaderChar c then skipHeader rest
    else .error (.unexpectedChar c)
termination_by cs.length
decreasing_by
  all_goals
    have hle := skipIgnored_length_le cs
    rw [hs, List.length_cons] at hle
  · have := skipGroup_shorter hg
    omega
  · have := string_shorter ht
    simp only [List.length_cons] at this
    omega
  · omega

theorem skipHeader_shorter {cs rest : List Char} (h : skipHeader cs = .ok rest) :
    rest.length < cs.length := by
  fun_induction skipHeader cs with
  | case1 => cases h
  | case2 cs r hs =>
    cases h
    have hle := skipIgnored_length_le cs
    rw [hs, List.length_cons] at hle
    omega
  | case3 => cases h
  | case4 cs r r₂ hg hs _ ih =>
    have hle := skipIgnored_length_le cs
    rw [hs, List.length_cons] at hle
    have := skipGroup_shorter hg
    have := ih h
    omega
  | case5 => cases h
  | case6 cs r s r₂ hs _ _ ht ih =>
    have hle := skipIgnored_length_le cs
    rw [hs, List.length_cons] at hle
    have := string_shorter ht
    simp only [List.length_cons] at this
    have := ih h
    omega
  | case7 cs c r hs _ _ _ _ ih =>
    have hle := skipIgnored_length_le cs
    rw [hs, List.length_cons] at hle
    have := ih h
    omega
  | case8 => cases h

/-- The words that open a definition. -/
def definitionWords : List String := ["query", "mutation", "subscription", "fragment"]

set_option linter.unusedVariables false in
/-- Checks that only definitions follow, each balanced, up to the end of the document. -/
def skipDefinitions (cs : List Char) : Except Malformed Unit :=
  match hs : skipIgnored cs with
  | [] => .ok ()
  | c :: rest =>
    if c = '\x7b' then
      match hg : skipGroup .laterSelection 0 rest with
      | .error e => .error e
      | .ok rest => skipDefinitions rest
    else if isNameStart c then
      match hn : name (c :: rest) with
      | .error e => .error e
      | .ok (word, rest) =>
        if word ∈ definitionWords then
          match hh : skipHeader rest with
          | .error e => .error e
          | .ok rest =>
            match hg : skipGroup .laterSelection 0 rest with
            | .error e => .error e
            | .ok rest => skipDefinitions rest
        else .error (.unexpectedName word)
    else .error (.unexpectedChar c)
termination_by cs.length
decreasing_by
  all_goals
    have hle := skipIgnored_length_le cs
    rw [hs, List.length_cons] at hle
    have := skipGroup_shorter hg
  · omega
  · have hw := name_shorter hn
    have := skipHeader_shorter hh
    rw [List.length_cons] at hw
    omega

/-! ## The root field -/

/-- Whether another selection comes next. -/
def startsSelection : List Char → Bool
  | '.' :: '.' :: '.' :: _ => true
  | c :: _ => isNameStart c
  | [] => false

/-- Whether a fragment comes next. -/
def startsFragment : List Char → Bool
  | '.' :: '.' :: '.' :: _ => true
  | _ => false

/-- Past a name, if one comes next. -/
def skipName (cs : List Char) : Except Malformed (List Char) :=
  match skipIgnored cs with
  | c :: rest => if isNameStart c then (name (c :: rest)).map (·.2) else .ok (c :: rest)
  | [] => .ok []

/-- Past the variable definitions of an operation, if it has any. -/
def skipVariables (cs : List Char) : Except Malformed (List Char) :=
  match eat? '(' cs with
  | some inside => skipGroup .header 0 inside
  | none => .ok (skipIgnored cs)

/-- What stands between the keyword of an operation and its opening brace: a name, variable
definitions and directives, each of them optional. -/
def operationHeader (cs : List Char) : Except Malformed (List Char) := do
  skipDirectives (← skipVariables (← skipName cs))

/-- The operation that a document starts with, and what follows its header. -/
def operation (cs : List Char) : Except Problem (Operation × List Char) := do
  let cs := skipIgnored cs
  if cs.head? = some '\x7b' then
    return (.query, cs)
  let (word, rest) ← (name cs : Except Malformed _)
  if word = "query" then
    return (.query, ← operationHeader rest)
  if word = "mutation" then
    return (.mutation, ← operationHeader rest)
  if word = "subscription" then
    throw (.unsupported .subscription)
  throw (.malformed (.unexpectedName word))

/-- A name, after a colon another one: the first is then an alias. -/
def fieldName (cs : List Char) : Except Malformed ((Option String × String) × List Char) := do
  let (first, rest) ← name cs
  match eat? ':' rest with
  | some rest =>
    let (second, rest) ← name rest
    return ((some first, second), rest)
  | none => return ((none, first), skipIgnored rest)

/-- The arguments of a field, if it has any. -/
def fieldArguments (cs : List Char) : Except Malformed (List (String × Literal) × List Char) :=
  match eat? '(' cs with
  | some inside => arguments inside
  | none => .ok ([], skipIgnored cs)

/-- The selection below a field, if it has one. -/
def skipSelection (cs : List Char) : Except Malformed (List Char) :=
  match eat? '\x7b' cs with
  | some inside => skipGroup .selection 0 inside
  | none => .ok (skipIgnored cs)

/-- What follows the root field: the end of its operation, and later definitions. -/
def finish (s : Selection) (cs : List Char) : Except Problem Selection := do
  let cs := skipIgnored cs
  if startsSelection cs then
    throw (.unsupported (.secondField s.name))
  let cs ← expect '\x7d' cs
  skipDefinitions cs
  return s

/-- The root field of an operation, from its opening brace on. -/
def rootField (op : Operation) (cs : List Char) : Except Problem Selection := do
  let cs := skipIgnored (← expect '\x7b' cs)
  if startsFragment cs then
    throw (.unsupported .rootFragment)
  let ((aliased, field), cs) ← fieldName cs
  let (args, cs) ← fieldArguments cs
  let cs ← skipSelection (← skipDirectives cs)
  finish ⟨op, field, aliased, args⟩ cs

/-- The root field of a document, before its variables are filled in. -/
def document (cs : List Char) : Except Problem Selection := do
  let (op, cs) ← operation cs
  rootField op cs

/-- The root field that a document asks for, given its variables. -/
def parse (text : String) (given : Members) : Except Problem RootField :=
  (document text.toList).map (·.resolve given)

/-- The operation that the first characters of a document name, if they do. -/
def hint (text : String) : Option Operation :=
  let cs := skipIgnored text.toList
  if cs.head? = some '\x7b' then some .query
  else
    match name cs with
    | .ok (word, _) =>
      if word = "query" then some .query
      else if word = "mutation" then some .mutation
      else none
    | .error _ => none

end Intranet.Graphql
