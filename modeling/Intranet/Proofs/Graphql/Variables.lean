import Intranet.Proofs.Graphql.Grammar
import Intranet.Proofs.Json.Members

/-!
# Variables cannot change how a document is read

A document can be read in one pass that fills in each variable where it is named, puts the fields
of an object and the arguments of a field in place as they come, and reads the arguments of
directives with the same variables before it forgets them. That pass agrees with reading the
document first and filling in afterwards, at every step and on every text, also where both fail.

Main results:

* `Taker.manyOnto_map`, `membersOnto_eq`: loops over items follow each other if the readers of one
  item do;
* `filledRun_eq`, `directivesAtOnce_eq`, `rootFieldAtOnce_eq`: one pass in lockstep with two;
* `variables_hygienic`: acceptance, the field and the names of its arguments depend on the text
  alone, and each argument is one literal of the text with its variables replaced.
-/

namespace Intranet

namespace Graphql

/-! ## Reading in one pass -/

set_option linter.unusedVariables false in
/-- Members up to a closing character, each put among those already there as it comes. -/
def membersOnto (p : Taker Json) (close : Char) (done : Members) (cs : List Char) :
    Except Malformed (Members × List Char) :=
  match eat? close cs with
  | some rest => .ok (done, rest)
  | none =>
    match h : (pair p).run cs with
    | .error e => .error e
    | .ok ((key, value), rest) => membersOnto p close (Members.insert key value done) rest
termination_by cs.length
decreasing_by exact (pair p).shorter h

/-- The value of a name: the three words of the language, or an enumeration value. -/
def wordValue (n : String) : Json :=
  if n = "true" then .bool true
  else if n = "false" then .bool false
  else if n = "null" then .null
  else .str n

/-- The value of a number. -/
def numberValue : Number → Json
  | .int n => .int n
  | .float d => .float d

/-- A value with its variables filled in on the way, given how to read the values inside it. -/
def filledRun (given : Members) (inner : Option (Taker Json)) (cs : List Char) :
    Except Malformed (Json × List Char) :=
  match skipIgnored cs with
  | [] => .error .unexpectedEnd
  | c :: rest =>
    if c = '[' then
      match inner with
      | none => .error .tooDeep
      | some p => (p.many ']' rest).map fun (items, rest) => (.arr items, rest)
    else if c = '\x7b' then
      match inner with
      | none => .error .tooDeep
      | some p => (membersOnto p '\x7d' [] rest).map fun (fields, rest) => (.obj fields, rest)
    else if c = '$' then
      (name rest).map fun (n, rest) => ((Members.get? n given).getD .null, rest)
    else if c = '"' then (string (c :: rest)).map fun (s, rest) => (.str s, rest)
    else if c = '-' ∨ Decimal.isDigit c then
      (number (c :: rest)).map fun (n, rest) => (numberValue n, rest)
    else if isNameStart c then (name (c :: rest)).map fun (n, rest) => (wordValue n, rest)
    else .error (.unexpectedChar c)

/-- Two readers of which one gives what the other gives, made into something else. -/
def Taker.Follows {α β : Type} (q : Taker β) (p : Taker α) (f : α → β) : Prop :=
  ∀ cs, q.run cs = (p.run cs).map (Prod.map f id)

/-! ## Readers that follow each other -/

section Following

variable {α β : Type} {p : Taker α} {q : Taker β} {f : α → β}

theorem pair_follows (h : q.Follows p f) : (pair q).Follows (pair p) (Prod.map id f) := by
  intro cs
  show pairRun q cs = (pairRun p cs).map _
  unfold pairRun
  cases name cs with
  | error e => rfl
  | ok r =>
    dsimp only
    cases expect ':' r.2 with
    | error e => rfl
    | ok rest =>
      dsimp only
      rw [h rest]
      cases p.run rest <;> rfl

/-- Items follow items, round by round. -/
theorem Taker.manyOnto_map (h : q.Follows p f) (close : Char) (done : List α) (cs : List Char) :
    q.manyOnto close (done.map f) cs =
      (p.manyOnto close done cs).map (Prod.map (List.map f) id) := by
  fun_induction p.manyOnto close done cs with
  | case1 done cs rest he =>
    rw [manyOnto_eq, he, ← List.map_reverse]
    rfl
  | case2 done cs he e hr =>
    rw [manyOnto_eq, he, h cs, hr]
    rfl
  | case3 done cs he a rest hr ih =>
    rw [manyOnto_eq, he, h cs, hr, ← ih]
    rfl

theorem Taker.many_map (h : q.Follows p f) (close : Char) (cs : List Char) :
    q.many close cs = (p.many close cs).map (Prod.map (List.map f) id) :=
  Taker.manyOnto_map h close [] cs

end Following

/-- Putting members as they come is putting all of them at the end. -/
theorem membersOnto_eq (p : Taker Json) (close : Char) (done : List (String × Json))
    (cs : List Char) :
    membersOnto p close (Members.ofList done.reverse) cs =
      ((pair p).manyOnto close done cs).map (Prod.map Members.ofList id) := by
  fun_induction (pair p).manyOnto close done cs with
  | case1 done cs rest he =>
    rw [membersOnto]
    split
    · next h =>
      rw [he] at h
      cases h
      rfl
    · next h =>
      rw [he] at h
      cases h
  | case2 done cs he e hr =>
    rw [membersOnto]
    split
    · next h =>
      rw [he] at h
      cases h
    · split
      · next e' h =>
        rw [hr] at h
        cases h
        rfl
      · next h =>
        rw [hr] at h
        cases h
  | case3 done cs he a rest hr ih =>
    rw [membersOnto]
    split
    · next h =>
      rw [he] at h
      cases h
    · split
      · next h =>
        rw [hr] at h
        cases h
      · next key value rest' h =>
        rw [hr] at h
        cases h
        rw [← ih, List.reverse_cons, Members.ofList_concat]

/-- Members that are put as they come, where each value follows a literal. -/
theorem membersOnto_follows {α : Type} {p : Taker α} {q : Taker Json} {f : α → Json}
    (h : q.Follows p f) (close : Char) (cs : List Char) :
    membersOnto q close [] cs = ((pair p).many close cs).map
      (Prod.map (fun fields => Members.ofList (fields.map (Prod.map id f))) id) := by
  have hm := Taker.many_map (pair_follows h) close cs
  rw [show ([] : Members) = Members.ofList ([] : List (String × Json)).reverse from rfl,
    membersOnto_eq]
  show ((pair q).many close cs).map _ = _
  rw [hm]
  cases (pair p).many close cs <;> rfl

/-! ## Values -/

section Filling

variable (given : Members)

theorem resolve_ofName (n : String) : (Literal.ofName n).resolve given = wordValue n := by
  unfold Literal.ofName wordValue
  by_cases ht : n = "true"
  · rw [if_pos ht, if_pos ht, Literal.resolve]
  rw [if_neg ht, if_neg ht]
  by_cases hf : n = "false"
  · rw [if_pos hf, if_pos hf, Literal.resolve]
  rw [if_neg hf, if_neg hf]
  by_cases hn : n = "null"
  · rw [if_pos hn, if_pos hn, Literal.resolve]
  · rw [if_neg hn, if_neg hn, Literal.resolve]

theorem resolve_ofNumber (n : Number) : (Literal.ofNumber n).resolve given = numberValue n := by
  cases n <;> rw [Literal.ofNumber, Literal.resolve, numberValue]

/-- How the readers of inner values of both passes belong together: neither may open a list or an
object, or one follows the other. -/
inductive Inner : Option (Taker Json) → Option (Taker Literal) → Prop where
  | none : Inner none none
  | some {q : Taker Json} {p : Taker Literal} (h : q.Follows p (Literal.resolve given)) :
    Inner (some q) (some p)

variable {given}

/-- A value that is filled in on the way is the value of the literal that is written, and both
readers fail alike. -/
theorem filledRun_eq {inner : Option (Taker Json)} {plain : Option (Taker Literal)}
    (h : Inner given inner plain) (cs : List Char) :
    filledRun given inner cs = (valueRun plain cs).map (Prod.map (Literal.resolve given) id) := by
  unfold filledRun valueRun
  cases skipIgnored cs with
  | nil => rfl
  | cons c rest =>
    dsimp only
    by_cases hlist : c = '['
    · rw [if_pos hlist, if_pos hlist]
      cases h with
      | none => rfl
      | some hq =>
        dsimp only
        rw [Taker.many_map hq]
        cases Taker.many _ ']' rest with
        | error e => rfl
        | ok r => simp [Except.map, Literal.resolve, resolveItems_eq_map]
    rw [if_neg hlist, if_neg hlist]
    by_cases hobject : c = '\x7b'
    · rw [if_pos hobject, if_pos hobject]
      cases h with
      | none => rfl
      | some hq =>
        dsimp only
        rw [membersOnto_follows hq]
        cases (pair _).many '\x7d' rest with
        | error e => rfl
        | ok r =>
          simp only [Except.map, Prod.map, Literal.resolve, Json.mk, resolveFields_eq_map]
          rfl
    rw [if_neg hobject, if_neg hobject]
    by_cases href : c = '$'
    · rw [if_pos href, if_pos href]
      cases name rest with
      | error e => rfl
      | ok r => simp [Except.map, Literal.resolve]
    rw [if_neg href, if_neg href]
    by_cases hstring : c = '"'
    · rw [if_pos hstring, if_pos hstring]
      cases string (c :: rest) with
      | error e => rfl
      | ok r => simp [Except.map, Literal.resolve]
    rw [if_neg hstring, if_neg hstring]
    by_cases hnumber : c = '-' ∨ Decimal.isDigit c = true
    · rw [if_pos hnumber, if_pos hnumber]
      cases number (c :: rest) with
      | error e => rfl
      | ok r => simp [Except.map, resolve_ofNumber]
    rw [if_neg hnumber, if_neg hnumber]
    by_cases hname : isNameStart c = true
    · rw [if_pos hname, if_pos hname]
      cases name (c :: rest) with
      | error e => rfl
      | ok r => simp [Except.map, resolve_ofName]
    · rw [if_neg hname, if_neg hname]
      rfl

theorem filledRun_shorter {inner : Option (Taker Json)} {plain : Option (Taker Literal)}
    (h : Inner given inner plain) {cs rest : List Char} {j : Json}
    (hr : filledRun given inner cs = .ok (j, rest)) : rest.length < cs.length := by
  rw [filledRun_eq h] at hr
  exact map_shorter (fun _ _ => rfl) (fun _ _ hv => valueRun_shorter hv) hr

variable (given)

/-- A value that is filled in on the way, with at most so many lists and objects open at once. -/
def filled : (n : Nat) → { q : Taker Json // q.Follows (literal n) (Literal.resolve given) }
  | 0 => ⟨⟨filledRun given none, filledRun_shorter .none⟩, filledRun_eq .none⟩
  | n + 1 =>
    have h := Inner.some (filled n).2
    ⟨⟨filledRun given (some (filled n).1), filledRun_shorter h⟩, filledRun_eq h⟩

/-! ## Arguments and directives -/

/-- Arguments after their opening parenthesis, each put in place as it comes. -/
def argumentsAtOnce (cs : List Char) : Except Malformed (Members × List Char) :=
  membersOnto (filled given maxDepth).1 ')' [] cs

/-- The arguments of a field, if it has any. -/
def fieldArgumentsAtOnce (cs : List Char) : Except Malformed (Members × List Char) :=
  match eat? '(' cs with
  | some inside => argumentsAtOnce given inside
  | none => .ok ([], skipIgnored cs)

/-- The members that written arguments come to. -/
def fill (args : List (String × Literal)) : Members :=
  Members.ofList (args.map (Prod.map id (Literal.resolve given)))

theorem argumentsAtOnce_eq (cs : List Char) :
    argumentsAtOnce given cs = (arguments cs).map (Prod.map (fill given) id) :=
  membersOnto_follows (filled given maxDepth).2 ')' cs

theorem fieldArgumentsAtOnce_eq (cs : List Char) :
    fieldArgumentsAtOnce given cs = (fieldArguments cs).map (Prod.map (fill given) id) := by
  unfold fieldArgumentsAtOnce fieldArguments
  cases eat? '(' cs with
  | none => rfl
  | some inside => exact argumentsAtOnce_eq given inside

theorem argumentsAtOnce_shorter {cs rest : List Char} {args : Members}
    (h : argumentsAtOnce given cs = .ok (args, rest)) : rest.length < cs.length := by
  rw [argumentsAtOnce_eq] at h
  exact map_shorter (fun _ _ => rfl) (fun _ _ ha => arguments_shorter ha) h

set_option linter.unusedVariables false in
/-- Past the directives that come next, filling in their arguments before they are forgotten. -/
def directivesAtOnce (cs : List Char) : Except Malformed (List Char) :=
  match ha : eat? '@' cs with
  | none => .ok (skipIgnored cs)
  | some rest =>
    match hn : name rest with
    | .error e => .error e
    | .ok (_, rest) =>
      match hp : eat? '(' rest with
      | none => directivesAtOnce rest
      | some inside =>
        match hg : argumentsAtOnce given inside with
        | .error e => .error e
        | .ok (_, rest) => directivesAtOnce rest
termination_by cs.length
decreasing_by
  · have := eat?_shorter ha
    have := name_shorter hn
    omega
  · have := eat?_shorter ha
    have := name_shorter hn
    have := eat?_shorter hp
    have := argumentsAtOnce_shorter given hg
    omega

/-- What stands in directives is passed over alike, whatever the variables are. -/
theorem directivesAtOnce_eq (cs : List Char) : directivesAtOnce given cs = skipDirectives cs := by
  fun_induction directivesAtOnce given cs with
  | case1 cs ha =>
    rw [skipDirectives_eq, ha]
    rfl
  | case2 cs rest ha e hn =>
    rw [skipDirectives_eq, ha, Option.elim_some, hn]
    rfl
  | case3 cs rest ha w rest' hn hp ih =>
    rw [ih, skipDirectives_eq cs, ha, Option.elim_some, hn]
    show _ = (eat? '(' rest').elim _ _
    rw [hp]
    rfl
  | case4 cs rest ha w rest' hn inside hp e hg =>
    rw [argumentsAtOnce_eq] at hg
    rw [skipDirectives_eq, ha, Option.elim_some, hn]
    show _ = (eat? '(' rest').elim _ _
    rw [hp, Option.elim_some]
    cases harg : arguments inside with
    | error e' =>
      rw [harg] at hg
      cases hg
      rfl
    | ok r =>
      rw [harg] at hg
      cases hg
  | case5 cs rest ha w rest' hn inside hp args rest'' hg ih =>
    rw [argumentsAtOnce_eq] at hg
    rw [ih, skipDirectives_eq cs, ha, Option.elim_some, hn]
    show _ = (eat? '(' rest').elim _ _
    rw [hp, Option.elim_some]
    cases harg : arguments inside with
    | error e' =>
      rw [harg] at hg
      cases hg
    | ok r =>
      rw [harg] at hg
      cases hg
      rfl

/-! ## The whole document -/

/-- What stands between the keyword of an operation and its opening brace. -/
def headerAtOnce (cs : List Char) : Except Malformed (List Char) := do
  directivesAtOnce given (← skipVariables (← skipName cs))

/-- The operation that a document starts with, and what follows its header. -/
def operationAtOnce (cs : List Char) : Except Problem (Operation × List Char) := do
  let cs := skipIgnored cs
  if cs.head? = some '\x7b' then
    return (.query, cs)
  let (word, rest) ← (name cs : Except Malformed _)
  if word = "query" then
    return (.query, ← headerAtOnce given rest)
  if word = "mutation" then
    return (.mutation, ← headerAtOnce given rest)
  if word = "subscription" then
    throw (.unsupported .subscription)
  throw (.malformed (.unexpectedName word))

/-- What follows the root field: the end of its operation, and later definitions. -/
def finishAtOnce (f : RootField) (cs : List Char) : Except Problem RootField := do
  let cs := skipIgnored cs
  if startsSelection cs then
    throw (.unsupported (.secondField f.name))
  let cs ← expect '\x7d' cs
  skipDefinitions cs
  return f

/-- The root field of an operation with its arguments, from its opening brace on. -/
def rootFieldAtOnce (op : Operation) (cs : List Char) : Except Problem RootField := do
  let cs := skipIgnored (← expect '\x7b' cs)
  if startsFragment cs then
    throw (.unsupported .rootFragment)
  let ((aliased, field), cs) ← fieldName cs
  let (args, cs) ← fieldArgumentsAtOnce given cs
  let cs ← skipSelection (← directivesAtOnce given cs)
  finishAtOnce ⟨op, field, aliased, args⟩ cs

/-- The root field that a document asks for, read in one pass. -/
def parseAtOnce (text : String) : Except Problem RootField := do
  let (op, cs) ← operationAtOnce given text.toList
  rootFieldAtOnce given op cs

theorem operationAtOnce_eq (cs : List Char) : operationAtOnce given cs = operation cs := by
  have hheader : ∀ cs, headerAtOnce given cs = operationHeader cs := by
    intro cs
    simp only [headerAtOnce, operationHeader, directivesAtOnce_eq]
  simp only [operationAtOnce, operation, hheader]

theorem finishAtOnce_eq (s : Selection) (cs : List Char) :
    finishAtOnce (s.resolve given) cs = (finish s cs).map (Selection.resolve given) := by
  unfold finishAtOnce finish
  by_cases hs : startsSelection (skipIgnored cs)
  · rw [if_pos hs, if_pos hs]
    rfl
  · rw [if_neg hs, if_neg hs]
    cases expect '\x7d' (skipIgnored cs) with
    | error e => rfl
    | ok rest =>
      show Except.bind (Except.mapError _ (skipDefinitions rest)) _ =
        (Except.bind (Except.mapError _ (skipDefinitions rest)) _).map _
      cases skipDefinitions rest <;> rfl

/-- From the arguments on both passes do the same, and the first failure is the same one. -/
theorem rootFieldAtOnce_eq (op : Operation) (cs : List Char) :
    rootFieldAtOnce given op cs = (rootField op cs).map (Selection.resolve given) := by
  rw [rootField_eq]
  unfold rootFieldAtOnce
  cases expect '\x7b' cs with
  | error e => rfl
  | ok rest =>
    rw [proceed_ok]
    by_cases hf : startsFragment (skipIgnored rest)
    · rw [if_pos hf]
      exact if_pos hf
    rw [if_neg hf]
    refine Eq.trans (if_neg hf) ?_
    cases fieldName (skipIgnored rest) with
    | error e => rfl
    | ok r =>
      rw [proceed_ok]
      show Except.bind (Except.mapError _ (fieldArgumentsAtOnce given r.2)) _ = _
      rw [fieldArgumentsAtOnce_eq]
      cases fieldArguments r.2 with
      | error e => rfl
      | ok t =>
        show Except.bind (Except.mapError _ (directivesAtOnce given t.2)) _ = _
        rw [directivesAtOnce_eq, proceed_ok, afterArguments]
        cases skipDirectives t.2 with
        | error e => rfl
        | ok rest =>
          show Except.bind (Except.mapError _ (skipSelection rest)) _ = _
          rw [proceed_ok]
          cases skipSelection rest with
          | error e => rfl
          | ok rest => exact finishAtOnce_eq given ⟨op, r.1.2, r.1.1, t.1⟩ rest

/-- Reading in one pass and reading first and filling in afterwards come to the same, on every
text. -/
theorem parseAtOnce_eq (text : String) : parseAtOnce given text = parse text given := by
  unfold parseAtOnce parse document
  rw [operationAtOnce_eq]
  cases operation text.toList with
  | error e => rfl
  | ok r => exact rootFieldAtOnce_eq given r.1 r.2

end Filling

/-! ## What depends on the text alone -/

/-- The literal under the name of an argument. Of two under one name the later counts. -/
def Selection.argument? (key : String) (s : Selection) : Option Literal :=
  (s.arguments.reverse.find? fun a => a.1 = key).map (·.2)

/-- The names of the arguments, in order, each once. -/
def Selection.argumentNames (s : Selection) : List String :=
  (Members.ofList (s.arguments.map fun a => (a.1, Json.null))).map Prod.fst

theorem names_resolve (given : Members) (s : Selection) :
    (s.resolve given).arguments.map Prod.fst = s.argumentNames :=
  Members.names_ofList (Literal.resolve given) (fun _ => .null) s.arguments

/-- An argument is its literal with the variables filled in. -/
theorem get?_resolve (given : Members) (key : String) (s : Selection) :
    Members.get? key (s.resolve given).arguments =
      (s.argument? key).map (Literal.resolve given) := by
  show Members.get? key (Members.ofList (s.arguments.map _)) = _
  rw [Members.get?_ofList, ← List.map_reverse, List.find?_map, Option.map_map,
    Selection.argument?, Option.map_map]
  rfl

/-- What a text alone makes of a document: that it is refused and why, or a root field with
literals for arguments. Any reading of the text is this one with the variables filled in. -/
structure Template (text : String) (t : Except Problem Selection) : Prop where
  /-- A document is refused whatever its variables are, and for the same reason. -/
  refused : ∀ e, t = .error e → ∀ given, parseAtOnce given text = .error e
  /-- A document that is accepted is accepted with any variables. They touch neither the field nor
  the names of its arguments. -/
  accepted : ∀ s, t = .ok s → ∀ given, ∃ f, parseAtOnce given text = .ok f ∧
    f.operation = s.operation ∧ f.name = s.name ∧ f.aliased = s.aliased ∧
    f.arguments.map Prod.fst = s.argumentNames ∧
    ∀ key, Members.get? key f.arguments = (s.argument? key).map (Literal.resolve given)

theorem template_document (text : String) : Template text (document text.toList) where
  refused := by
    intro e h given
    rw [parseAtOnce_eq, parse, h]
    rfl
  accepted := by
    intro s h given
    refine ⟨s.resolve given, ?_, rfl, rfl, rfl, names_resolve given s, fun key =>
      get?_resolve given key s⟩
    rw [parseAtOnce_eq, parse, h]
    rfl

/-- **Variables are hygienic.** A text has one template, whatever the variables are: they cannot
change whether it is accepted or why it is refused, nor which field runs under which name with
which arguments, and an argument is the literal of the template with its variables filled in. This
holds although they are filled in while the text is read, and `parse` is that reading. -/
theorem variables_hygienic (text : String) :
    (∀ given, parse text given = parseAtOnce given text) ∧
    (∃ t, Template text t) ∧
    (∀ v w e, parse text v = .error e ↔ parse text w = .error e) ∧
    ∀ v w f, parse text v = .ok f → ∃ g, parse text w = .ok g ∧ g.operation = f.operation ∧
      g.name = f.name ∧ g.aliased = f.aliased ∧
      g.arguments.map Prod.fst = f.arguments.map Prod.fst := by
  refine ⟨fun given => (parseAtOnce_eq given text).symm, ⟨_, template_document text⟩, ?_, ?_⟩
  · intro v w e
    unfold parse
    cases document text.toList with
    | error e' => exact Iff.rfl
    | ok s => exact ⟨nofun, nofun⟩
  · intro v w f hf
    unfold parse at hf ⊢
    cases hd : document text.toList with
    | error e =>
      rw [hd] at hf
      cases hf
    | ok s =>
      rw [hd] at hf
      cases hf
      exact ⟨s.resolve w, rfl, rfl, rfl, rfl, (names_resolve w s).trans (names_resolve v s).symm⟩

end Graphql

end Intranet
