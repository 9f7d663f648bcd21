import Intranet.Proofs.Graphql.Parts

/-!
# Reading by bytes is safe

The reader that goes byte by byte keeps to every text, however malformed: it commits no breach, and
it answers as the reader of characters does.

Main results:

* `rootField_answers`, `document_answers`: documents, part by part;
* `parse_safe`: the answer to a document and the hint at its operation, for every text.
-/

namespace Intranet.Graphql.Bytewise

open Json (bytesOf)

variable {all cs : List Char} {pos : Nat}

/-! ## Optional parts -/

theorem skipName_agrees : Follows told skipName fun cs =>
    (Graphql.skipName cs).map fun rest => ((), rest) := by
  intro all cs pos h
  obtain ⟨pos', hskip, hat⟩ := skipIgnored_agrees h
  show Agrees told all ((skipIgnored >>= _) (bytesOf all) pos) ((Graphql.skipName cs).map _)
  rw [bind_ok hskip, peek_bind, hat.peek_any isAscii_isNameStart]
  unfold Graphql.skipName
  cases hs : Graphql.skipIgnored cs with
  | nil =>
    rw [hs] at hat
    exact ⟨pos', rfl, hat⟩
  | cons c rest =>
    rw [hs] at hat
    rw [List.head?_cons, Option.any_some]
    dsimp only
    by_cases hc : isNameStart c = true
    · rw [if_pos hc, if_pos hc]
      have hname := (name_agrees hat).map fun _ => ()
      cases hn : Graphql.name (c :: rest) with
      | error e =>
        rw [hn] at hname
        exact hname
      | ok s =>
        rw [hn] at hname
        exact hname
    · rw [if_neg hc, if_neg hc]
      exact ⟨pos', rfl, hat⟩

/-- Past a group, if one comes next. -/
def pastGroup (g : Group) (cs : List Char) : Except Malformed (List Char) :=
  match eat? g.opening cs with
  | some inside => Graphql.skipGroup g 0 inside
  | none => .ok (Graphql.skipIgnored cs)

theorem skipOptional_agrees (g : Group) : Follows told (skipOptional g.opening g.closing) fun cs =>
    (pastGroup g cs).map fun rest => ((), rest) := by
  intro all cs pos h
  show Agrees told all ((eat g.opening >>= _) (bytesOf all) pos) ((pastGroup g cs).map _)
  unfold pastGroup
  cases he : eat? g.opening cs with
  | some inside =>
    obtain ⟨pos', heat, hat⟩ := eat_some (isAscii_opening g) h he
    rw [bind_ok heat]
    exact skipGroup_agrees g hat
  | none =>
    obtain ⟨pos', heat, hat⟩ := eat_none (isAscii_opening g) h he
    rw [bind_ok heat]
    exact ⟨pos', rfl, hat⟩

/-! ## The root field -/

theorem fieldName_agrees : Follows told fieldName Graphql.fieldName := by
  intro all cs pos h
  show Agrees told all ((name >>= _) (bytesOf all) pos) _
  rw [fieldName_eq]
  apply (name_agrees h).bind
  intro first ds pos₁ _ hat₁
  show Agrees told all ((eat ':' >>= _) (bytesOf all) pos₁) ((eat? ':' ds).elim _ _)
  cases he : eat? ':' ds with
  | none =>
    obtain ⟨pos₂, heat, hat₂⟩ := eat_none (by decide) hat₁ he
    rw [bind_ok heat]
    exact ⟨pos₂, rfl, hat₂⟩
  | some rest =>
    obtain ⟨pos₂, heat, hat₂⟩ := eat_some (by decide) hat₁ he
    rw [bind_ok heat]
    exact (name_agrees hat₂).map fun second => (some first, second)

theorem fieldArguments_agrees (given : Members) :
    Follows told (fieldArguments given) (fieldArgumentsAtOnce given) := by
  intro all cs pos h
  show Agrees told all ((eat '(' >>= _) (bytesOf all) pos) _
  unfold fieldArgumentsAtOnce
  cases he : eat? '(' cs with
  | none =>
    obtain ⟨pos', heat, hat⟩ := eat_none (by decide) h he
    rw [bind_ok heat]
    exact ⟨pos', rfl, hat⟩
  | some inside =>
    obtain ⟨pos', heat, hat⟩ := eat_some (by decide) h he
    rw [bind_ok heat]
    exact arguments_agrees given hat

/-- Three dots are seen by their bytes. -/
theorem dots_isPrefixOf (cs : List Char) : "...".toList.isPrefixOf cs = startsFragment cs := by
  have hdots : "...".toList = ['.', '.', '.'] := rfl
  rw [hdots, Bool.eq_iff_iff, List.isPrefixOf_iff_prefix]
  constructor
  · rintro ⟨ds, rfl⟩
    rfl
  · intro h
    unfold startsFragment at h
    split at h
    · next ds => exact List.prefix_append ['.', '.', '.'] ds
    · cases h

theorem At.startsSelection_eq (h : At all cs pos) :
    startsSelection (bytesOf all) pos = .ok (Graphql.startsSelection cs, pos) := by
  show (peek >>= _) (bytesOf all) pos = _
  rw [peek_bind, h.peek_any isAscii_isNameStart]
  cases cs with
  | nil => exact h.startsWith_eq _
  | cons c cs =>
    rw [List.head?_cons, Option.any_some, Graphql.startsSelection_eq]
    by_cases hc : isNameStart c = true
    · rw [if_pos hc, hc, Bool.or_true]
      rfl
    · rw [if_neg hc, Bool.eq_false_iff.mpr hc, Bool.or_false, ← dots_isPrefixOf]
      exact h.startsWith_eq _

/-! ## Answers -/

/-- What clients are told of a document that is not read. -/
def refused (p : Problem) : Stop := .refused p.code p.message

/-- A reader of bytes gives the root field that a reader of characters gives, with its variables
filled in, at the end of the text; or it is refused for the same reason. -/
def Answers (given : Members) (all : List Char) (r : Except Stop (RootField × Nat))
    (x : Except Problem Selection) : Prop :=
  Agrees refused all r (x.map fun s => (s.resolve given, []))

section Answers

variable {α β : Type} {given : Members} {text : List UInt8} {r : Reader α}
  {k : α → Reader RootField}

/-- Goes on with what a reader gives, as both readers have it. -/
theorem Agrees.answers {x : Except Malformed β} {out : β → α × List Char}
    {K : β → Except Problem Selection} (h : Agrees told all (r text pos) (x.map out))
    (hk : ∀ b pos', At all (out b).2 pos' → Answers given all (k (out b).1 text pos') (K b)) :
    Answers given all ((r >>= k) text pos) (proceed x K) := by
  cases x with
  | error e => exact bind_error h
  | ok b =>
    obtain ⟨pos', hr, hat⟩ := h
    rw [bind_ok hr]
    exact hk b pos' hat

theorem Agrees.answers_self {x : Except Malformed (α × List Char)}
    {K : α × List Char → Except Problem Selection} (h : Agrees told all (r text pos) x)
    (hk : ∀ s pos', At all s.2 pos' → Answers given all (k s.1 text pos') (K s)) :
    Answers given all ((r >>= k) text pos) (proceed x K) := by
  have hself : Agrees told all (r text pos) (x.map id) := by
    rw [Except.map_id]
    exact h
  exact hself.answers hk

theorem unsupported_refused {message : String} {u : Unsupported} (h : message = u.message) :
    (unsupported message : Reader α) text pos = .error (refused (.unsupported u)) := by
  rw [h]
  rfl

theorem finish_answers (s : Selection) (h : At all cs pos) :
    Answers given all (finish (s.resolve given) (bytesOf all) pos) (Graphql.finish s cs) := by
  obtain ⟨pos₁, hskip, hat₁⟩ := skipIgnored_agrees h
  show Answers given all ((skipIgnored >>= _) (bytesOf all) pos) _
  rw [bind_ok hskip, bind_ok hat₁.startsSelection_eq, finish_eq]
  by_cases hs : Graphql.startsSelection (Graphql.skipIgnored cs) = true
  · rw [if_pos hs, if_pos hs]
    exact unsupported_refused rfl
  · rw [if_neg hs, if_neg hs, ← expect_skipIgnored]
    apply (expect_agrees (by decide) hat₁).answers
    intro ds pos₂ hat₂
    apply (skipDefinitions_agrees hat₂).answers
    intro u pos₃ hat₃
    exact ⟨pos₃, rfl, hat₃⟩

theorem rootField_answers (op : Operation) (h : At all cs pos) :
    Answers given all (rootField given op (bytesOf all) pos) (Graphql.rootField op cs) := by
  rw [rootField_eq]
  apply (expect_agrees (by decide) h).answers
  intro rest pos₁ hat₁
  obtain ⟨pos₂, hskip, hat₂⟩ := skipIgnored_agrees hat₁
  rw [bind_ok hskip, bind_ok (hat₂.startsWith_eq _), dots_isPrefixOf]
  by_cases hf : startsFragment (Graphql.skipIgnored rest) = true
  · rw [if_pos hf, if_pos hf]
    exact unsupported_refused rfl
  rw [if_neg hf, if_neg hf]
  apply (fieldName_agrees hat₂).answers_self
  intro field pos₃ hat₃
  have hargs := fieldArguments_agrees given hat₃
  rw [fieldArgumentsAtOnce_eq] at hargs
  apply hargs.answers
  intro args pos₄ hat₄
  unfold afterArguments
  apply (skipDirectives_agrees given hat₄).answers
  intro ds pos₅ hat₅
  apply (skipOptional_agrees .selection hat₅).answers
  intro ds pos₆ hat₆
  exact finish_answers ⟨op, field.1.2, field.1.1, args.1⟩ hat₆

/-! ## Documents -/

/-- What comes after the keyword of an operation. -/
theorem afterKeyword_answers (op : Operation) (h : At all cs pos) :
    Answers given all ((operation.header given >>= fun _ => rootField given op) (bytesOf all) pos)
      (afterKeyword op cs) := by
  unfold operation.header
  rw [bind_assoc]
  apply (skipName_agrees h).answers
  intro ds pos₁ hat₁
  rw [bind_assoc]
  apply (skipOptional_agrees .header hat₁).answers
  intro ds pos₂ hat₂
  apply (skipDirectives_agrees given hat₂).answers
  intro ds pos₃ hat₃
  exact rootField_answers op hat₃

theorem document_answers (given : Members) (h : At all cs pos) :
    Answers given all (document given (bytesOf all) pos) (Graphql.document cs) := by
  obtain ⟨pos₁, hskip, hat₁⟩ := skipIgnored_agrees h
  show Answers given all ((operation given >>= rootField given) (bytesOf all) pos) _
  unfold operation
  rw [bind_assoc, bind_ok hskip, bind_assoc, peek_bind, hat₁.peek_latin, document_eq]
  by_cases hb : (Graphql.skipIgnored cs).head? = some '\x7b'
  · rw [if_pos ((head_shown_iff (by decide)).mpr hb), if_pos hb]
    exact rootField_answers .query hat₁
  rw [if_neg (mt (head_shown_iff (by decide)).mp hb), if_neg hb, ← name_skipIgnored, bind_assoc]
  apply (name_agrees hat₁).answers_self
  rintro ⟨word, ds⟩ pos₂ hat₂
  dsimp only
  by_cases hq : word = "query"
  · rw [if_pos hq, if_pos hq, bind_assoc]
    exact afterKeyword_answers .query hat₂
  rw [if_neg hq, if_neg hq]
  by_cases hm : word = "mutation"
  · rw [if_pos hm, if_pos hm, bind_assoc]
    exact afterKeyword_answers .mutation hat₂
  rw [if_neg hm, if_neg hm]
  by_cases hs : word = "subscription"
  · rw [if_pos hs, if_pos hs]
    exact bind_error (unsupported_refused rfl)
  · rw [if_neg hs, if_neg hs]
    apply bind_error
    apply malformed_told (m := .unexpectedName word)
    simp only [← String.append_assoc]
    rfl

end Answers

/-- What is refused is as good as not there. -/
theorem Agrees.attempt {α : Type} {r : Reader α} {x : Except Malformed (α × List Char)}
    (h : Agrees told all (r (bytesOf all) pos) x) :
    ∃ pos', attempt r (bytesOf all) pos = .ok (x.toOption.map (·.1), pos') := by
  unfold Bytewise.attempt
  cases x with
  | error e =>
    change r (bytesOf all) pos = _ at h
    rw [h]
    exact ⟨pos, rfl⟩
  | ok s =>
    obtain ⟨pos', hr, -⟩ := h
    rw [hr]
    exact ⟨pos', rfl⟩

theorem first_eq (text : String) : ∃ pos, hint.first (bytesOf text.toList) 0 =
    .ok (Graphql.hint text, pos) := by
  obtain ⟨pos₁, hskip, hat⟩ := skipIgnored_agrees (at_start text.toList)
  unfold hint.first Graphql.hint
  rw [bind_ok hskip, peek_bind, hat.peek_latin]
  dsimp only
  by_cases hb : (Graphql.skipIgnored text.toList).head? = some '\x7b'
  · rw [if_pos ((head_shown_iff (by decide)).mpr hb), if_pos hb]
    exact ⟨pos₁, rfl⟩
  rw [if_neg (mt (head_shown_iff (by decide)).mp hb), if_neg hb]
  obtain ⟨pos₂, hname⟩ := (name_agrees hat).attempt
  cases hn : Graphql.name (Graphql.skipIgnored text.toList) with
  | error e =>
    rw [hn] at hname
    rw [bind_ok hname]
    exact ⟨pos₂, rfl⟩
  | ok s =>
    obtain ⟨word, ds⟩ := s
    rw [hn] at hname
    change attempt name _ _ = .ok (some word, pos₂) at hname
    rw [bind_ok hname]
    dsimp only
    by_cases hq : word = "query"
    · rw [if_pos (congrArg some hq), if_pos hq]
      exact ⟨pos₂, rfl⟩
    rw [if_neg (mt Option.some.inj hq), if_neg hq]
    by_cases hm : word = "mutation"
    · rw [if_pos (congrArg some hm), if_pos hm]
      exact ⟨pos₂, rfl⟩
    · rw [if_neg (mt Option.some.inj hm), if_neg hm]
      exact ⟨pos₂, rfl⟩

/-! ## Safety -/

theorem encode_eq_bytesOf (text : String) : Utf8.encode text = bytesOf text.toList :=
  Utf8.encode_eq text

theorem parse_eq (text : String) (given : Members) :
    parse text given = .ok (reported (Graphql.parse text given)) := by
  have h := document_answers given (at_start text.toList)
  unfold parse Graphql.parse
  rw [encode_eq_bytesOf]
  cases hd : Graphql.document text.toList with
  | error p =>
    rw [hd] at h
    change document given (bytesOf text.toList) 0 = .error (refused p) at h
    rw [h]
    rfl
  | ok s =>
    rw [hd] at h
    obtain ⟨pos, hr, -⟩ := h
    rw [hr]
    rfl

theorem hint_eq (text : String) : hint text = .ok (Graphql.hint text) := by
  obtain ⟨pos, hfirst⟩ := first_eq text
  unfold hint
  rw [encode_eq_bytesOf, hfirst]

/-- A text does not start as another one. -/
theorem append_ne {a b s : String} (h : ¬a.toList <+: s.toList) : a ++ b ≠ s := by
  rintro rfl
  apply h
  rw [String.toList_append]
  exact List.prefix_append _ _

/-- No reason is that the bytes of a string spell none. -/
theorem message_ne (p : Problem) : p.message ≠ "Syntax Error: Invalid UTF-8 in string." := by
  cases p with
  | unsupported u =>
    cases u with
    | subscription => decide
    | rootFragment => decide
    | secondField first =>
      show _ ++ first ++ _ ≠ _
      rw [String.append_assoc]
      exact append_ne (by decide)
  | malformed m =>
    cases m with
    | unexpectedName name =>
      show _ ++ name ++ _ ≠ _
      rw [String.append_assoc]
      exact append_ne (by decide)
    | unexpectedChar c =>
      show _ ++ String.singleton (shown c) ++ _ ≠ _
      rw [String.append_assoc]
      exact append_ne (by decide)
    | expected wanted found =>
      show _ ++ String.singleton wanted ++ _ ++ _ ≠ _
      rw [String.append_assoc, String.append_assoc]
      exact append_ne (by decide)
    | badNumber text =>
      show _ ++ text ++ _ ≠ _
      rw [String.append_assoc]
      exact append_ne (by decide)
    | badEscape c =>
      show _ ++ String.singleton (shown c) ++ _ ≠ _
      rw [String.append_assoc]
      exact append_ne (by decide)
    | openGroup g depth =>
      show Malformed.unexpectedEnd.message ≠ _
      decide
    | unexpectedEnd | tooDeep | openString | brokenString | badCodePoint => decide

/-- Reading by bytes is safe for every text and all variables. Neither the answer nor the hint
commits a breach: no place is moved past the end, no part of the text is cut inside a character,
every round of a loop and every value inside another one takes a byte, the count of open brackets
is never negative, and the levels are enough. The answer and the hint are those of the reader of
characters, and no string is ever refused for its bytes. -/
theorem parse_safe (text : String) (given : Members) :
    parse text given = .ok (reported (Graphql.parse text given)) ∧
      hint text = .ok (Graphql.hint text) ∧
      ∀ code, parse text given ≠
        .ok (.error (code, "Syntax Error: Invalid UTF-8 in string.")) := by
  refine ⟨parse_eq text given, hint_eq text, ?_⟩
  intro code h
  rw [parse_eq] at h
  cases hp : Graphql.parse text given with
  | ok field =>
    rw [hp] at h
    cases h
  | error p =>
    rw [hp] at h
    injection h with h
    injection h with h
    injection h with hcode hmessage
    exact message_ne p hmessage

end Intranet.Graphql.Bytewise
