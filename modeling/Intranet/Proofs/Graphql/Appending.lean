import Intranet.Proofs.Graphql.Comments
import Intranet.Proofs.Graphql.Completeness
import Intranet.Proofs.Graphql.Continuing

/-!
# Text behind a document

Nothing that is read of a document depends on the text behind it. The readers are followed up to
the brace that ends the operation, and from there on the text behind is only the end of the later
definitions.

Main results:

* `Firm`, `firm_document`: of a document that is accepted, all but the later definitions is
  settled;
* `parse_append`: a longer text is read up to the same place;
* `parse_behind`: text on a line of its own behind a document is checked as definitions and else
  ignored.
-/

namespace Intranet.Graphql

/-! ## Up to the end of the operation -/

/-- A stage of reading after which only later definitions count: what it accepts it accepts with
any text behind that completes them, and with the same result. -/
def Firm (F : List Char → Except Problem Selection) : Prop :=
  ∀ {p : List Char} {r : Selection}, F p = .ok r → p ≠ [] ∧ ∃ q, skipDefinitions q = .ok () ∧
    ∀ z, F (p ++ z) = resume .laterSelection r (q ++ z)

section Stages

variable {α : Type} {c : Char} {R : List Char → Except Malformed (α × List Char)}
  {k : α → List Char → Except Problem Selection} {F G H : List Char → Except Problem Selection}

theorem Firm.read (hR : Keeps R) (hk : ∀ a, Firm (k a)) :
    Firm fun cs => proceed (R cs) fun r => k r.1 r.2 := by
  intro p s h
  obtain ⟨⟨a, q⟩, hr, h⟩ := proceed_eq_ok h
  obtain ⟨hq, rest, hrest, hz⟩ := hk a h
  refine ⟨?_, rest, hrest, ?_⟩
  · rintro rfl
    exact hR.skipIgnored_ne_nil hr rfl
  · intro z
    dsimp only
    rw [hR.keeps hr hq z]
    exact hz z

theorem Firm.expect (hF : Firm F) : Firm fun cs => proceed (Graphql.expect c cs) F := by
  intro p s h
  obtain ⟨q, hr, h⟩ := proceed_eq_ok h
  obtain ⟨-, rest, hrest, hz⟩ := hF h
  refine ⟨?_, rest, hrest, ?_⟩
  · rintro rfl
    cases hr
  · intro z
    dsimp only
    rw [expect_append hr z]
    exact hz z

theorem Firm.group {g : Group} {depth : Nat} (hF : Firm F) :
    Firm fun cs => proceed (skipGroup g depth cs) F := by
  intro p s h
  obtain ⟨q, hr, h⟩ := proceed_eq_ok h
  obtain ⟨-, rest, hrest, hz⟩ := hF h
  refine ⟨?_, rest, hrest, ?_⟩
  · rintro rfl
    rw [skipGroup_nil] at hr
    cases hr
  · intro z
    dsimp only
    rw [skipGroup_append hr z]
    exact hz z

/-- Punctuation that may come next. Where it does not, something else comes next, since both ways
of going on need more text. -/
theorem Firm.eat (hF : ∀ cs, F cs = (eat? c cs).elim (H (skipIgnored cs)) G) (hG : Firm G)
    (hH : Firm H) : Firm F := by
  intro p s h
  rw [hF] at h
  cases he : eat? c p with
  | some q =>
    rw [he] at h
    obtain ⟨-, rest, hrest, hz⟩ := hG h
    refine ⟨?_, rest, hrest, ?_⟩
    · rintro rfl
      cases he
    · intro z
      rw [hF, eat?_append he]
      exact hz z
  | none =>
    rw [he] at h
    obtain ⟨hne, rest, hrest, hz⟩ := hH h
    refine ⟨?_, rest, hrest, ?_⟩
    · rintro rfl
      exact hne rfl
    · intro z
      rw [hF, eat?_append_none he hne, skipIgnored_append_of_ne hne]
      exact hz z

/-- The induction is on the length of the text, since a directive may be of any length. -/
theorem Firm.directives (hF : Firm F) : Firm fun cs => proceed (skipDirectives cs) F := by
  suffices hlen : ∀ n : Nat, ∀ {p : List Char} {s : Selection}, p.length ≤ n →
      proceed (skipDirectives p) F = .ok s → p ≠ [] ∧ ∃ q, skipDefinitions q = .ok () ∧
        ∀ z, proceed (skipDirectives (p ++ z)) F = resume .laterSelection s (q ++ z) by
    intro p s h
    exact hlen p.length (Nat.le_refl _) h
  intro n
  induction n with
  | zero =>
    intro p s hn h
    obtain rfl := List.eq_nil_of_length_eq_zero (Nat.le_zero.mp hn)
    rw [skipDirectives_nil] at h
    exact absurd rfl (hF h).1
  | succ n ih =>
    intro p s hn h
    rw [proceed_skipDirectives] at h
    cases ha : eat? '@' p with
    | none =>
      rw [ha] at h
      obtain ⟨hne, rest, hrest, hz⟩ := hF h
      refine ⟨?_, rest, hrest, ?_⟩
      · rintro rfl
        exact hne rfl
      · intro z
        rw [proceed_skipDirectives, eat?_append_none ha hne, skipIgnored_append_of_ne hne]
        exact hz z
    | some p₁ =>
      rw [ha] at h
      obtain ⟨⟨w, p₂⟩, hw, h⟩ := proceed_eq_ok h
      dsimp only at h
      have hp : p ≠ [] := by
        rintro rfl
        cases ha
      have h₁ := eat?_shorter ha
      have h₂ := name_shorter hw
      cases ho : eat? '(' p₂ with
      | none =>
        rw [ho, Option.elim_none, skipDirectives_skipIgnored] at h
        obtain ⟨hne, rest, hrest, hz⟩ := ih (by omega) h
        have hskip : skipIgnored p₂ ≠ [] := by
          intro hs
          rw [← skipDirectives_skipIgnored, hs, skipDirectives_nil] at h
          exact (hF h).1 rfl
        refine ⟨hp, rest, hrest, ?_⟩
        intro z
        rw [proceed_skipDirectives, eat?_append ha, Option.elim_some, name_keeps.keeps hw hne,
          proceed_ok, eat?_append_none ho hskip, Option.elim_none, skipDirectives_skipIgnored]
        exact hz z
      | some inside =>
        rw [ho, Option.elim_some] at h
        obtain ⟨⟨args, p₃⟩, hargs, h⟩ := proceed_eq_ok h
        have h₃ := eat?_shorter ho
        have h₄ := arguments_shorter hargs
        obtain ⟨hne, rest, hrest, hz⟩ := ih (by dsimp only; omega) h
        have hne₂ : p₂ ≠ [] := by
          rintro rfl
          cases ho
        refine ⟨hp, rest, hrest, ?_⟩
        intro z
        rw [proceed_skipDirectives, eat?_append ha, Option.elim_some, name_keeps.keeps hw hne₂,
          proceed_ok, eat?_append ho, Option.elim_some,
          arguments_keeps.keeps hargs hne, proceed_ok]
        exact hz z

end Stages

theorem startsFragment_append_of_not {c : Char} {rest : List Char} (hc : c ≠ '.') (z : List Char) :
    startsFragment (c :: rest ++ z) = startsFragment (c :: rest) := by
  simp [startsFragment, hc]

theorem firm_finish (s : Selection) : Firm (finish s) := by
  intro p r h
  rw [finish_eq] at h
  split at h
  · cases h
  · next hstart =>
    obtain ⟨q, hq, h⟩ := proceed_eq_ok h
    obtain ⟨u, hu, h⟩ := proceed_eq_ok h
    cases h
    refine ⟨?_, q, hu, ?_⟩
    · rintro rfl
      cases hq
    · intro z
      cases hs : skipIgnored p with
      | nil =>
        rw [← expect_skipIgnored, hs] at hq
        cases hq
      | cons c rest =>
        by_cases hc : c = '\x7d'
        · subst hc
          rw [finish_eq, skipIgnored_append hs z, if_neg, expect_append hq]
          · rfl
          · simp [startsSelection, isNameStart]
        · rw [expect_of_skipIgnored hs, if_neg hc] at hq
          cases hq

theorem firm_afterArguments (s : Selection) : Firm (afterArguments s) := by
  apply Firm.directives
  apply Firm.eat (c := '\x7b') (G := passing .selection 0 s) (H := finish s)
  · intro cs
    rw [skipSelection_eq, proceed_elim]
    rfl
  · exact Firm.group (firm_finish s)
  · exact firm_finish s

theorem firm_fieldArguments (mk : List (String × Literal) → Selection) :
    Firm fun cs => proceed (fieldArguments cs) fun t => afterArguments (mk t.1) t.2 := by
  apply Firm.eat (c := '(') (G := fun cs => proceed (arguments cs) fun t =>
    afterArguments (mk t.1) t.2) (H := afterArguments (mk []))
  · intro cs
    unfold fieldArguments
    cases eat? '(' cs <;> rfl
  · exact Firm.read (k := fun args => afterArguments (mk args)) arguments_keeps
      fun args => firm_afterArguments (mk args)
  · exact firm_afterArguments (mk [])

theorem firm_fieldName (op : Operation) : Firm fun cs => proceed (fieldName cs) fun r =>
    proceed (fieldArguments r.2) fun t => afterArguments ⟨op, r.1.2, r.1.1, t.1⟩ t.2 := by
  have hnamed : ∀ n : Option String × String, Firm fun cs => proceed (fieldArguments cs) fun t =>
      afterArguments ⟨op, n.2, n.1, t.1⟩ t.2 := by
    intro n
    exact firm_fieldArguments fun args => ⟨op, n.2, n.1, args⟩
  have heq : (fun cs => proceed (fieldName cs) fun r =>
      proceed (fieldArguments r.2) fun t => afterArguments ⟨op, r.1.2, r.1.1, t.1⟩ t.2) =
      fun cs => proceed (name cs) fun r => (eat? ':' r.2).elim
        (proceed (fieldArguments (skipIgnored r.2)) fun t =>
          afterArguments ⟨op, r.1, none, t.1⟩ t.2) fun rest => proceed (name rest) fun u =>
            proceed (fieldArguments u.2) fun t => afterArguments ⟨op, u.1, some r.1, t.1⟩ t.2 := by
    funext cs
    exact proceed_fieldName cs fun n cs => proceed (fieldArguments cs) fun t =>
      afterArguments ⟨op, n.2, n.1, t.1⟩ t.2
  rw [heq]
  apply Firm.read (k := fun first cs => (eat? ':' cs).elim
    (proceed (fieldArguments (skipIgnored cs)) fun t => afterArguments ⟨op, first, none, t.1⟩ t.2)
      fun rest => proceed (name rest) fun u => proceed (fieldArguments u.2) fun t =>
        afterArguments ⟨op, u.1, some first, t.1⟩ t.2) name_keeps
  intro first
  apply Firm.eat (c := ':') (H := fun cs => proceed (fieldArguments cs) fun t =>
    afterArguments ⟨op, first, none, t.1⟩ t.2) (fun cs => rfl)
  · exact Firm.read (k := fun second cs => proceed (fieldArguments cs) fun t =>
      afterArguments ⟨op, second, some first, t.1⟩ t.2) name_keeps fun second =>
        hnamed (some first, second)
  · exact hnamed (none, first)

theorem firm_rootField (op : Operation) : Firm (rootField op) := by
  have heq : rootField op = fun cs => proceed (expect '\x7b' cs) fun rest =>
      if startsFragment (skipIgnored rest) then .error (.unsupported .rootFragment)
      else proceed (fieldName (skipIgnored rest)) fun r =>
        proceed (fieldArguments r.2) fun t => afterArguments ⟨op, r.1.2, r.1.1, t.1⟩ t.2 := by
    funext cs
    exact rootField_eq op cs
  rw [heq]
  apply Firm.expect
  intro p s h
  dsimp only at h ⊢
  split at h
  · cases h
  · next hfragment =>
    obtain ⟨hne, rest, hrest, hz⟩ := firm_fieldName op h
    refine ⟨?_, rest, hrest, ?_⟩
    · rintro rfl
      exact hne rfl
    · intro z
      rw [skipIgnored_append_of_ne hne]
      cases hs : skipIgnored p with
      | nil => exact absurd hs hne
      | cons c w =>
        -- A name comes first, so what follows cannot make it the points of a fragment.
        have hc : c ≠ '.' := by
          rintro rfl
          rw [fieldName_eq, hs, name_of_skipIgnored rfl] at h
          cases h
        rw [startsFragment_append_of_not hc, ← hs, if_neg hfragment]
        exact hz z

theorem firm_header (op : Operation) : Firm (resume .header (ahead op)) :=
  Firm.directives (firm_rootField op)

theorem firm_variables (op : Operation) :
    Firm fun cs => proceed (skipVariables cs) (resume .header (ahead op)) := by
  apply Firm.eat (c := '(') (G := passing .header 0 (ahead op)) (H := resume .header (ahead op))
  · intro cs
    rw [skipVariables_eq, proceed_elim]
    rfl
  · exact Firm.group (firm_header op)
  · exact firm_header op

theorem firm_afterKeyword (op : Operation) : Firm (afterKeyword op) := by
  intro p s h
  cases hs : skipIgnored p with
  | nil =>
    unfold afterKeyword skipName at h
    rw [hs] at h
    exact absurd rfl (firm_variables op (p := []) h).1
  | cons c rest =>
    have hp : p ≠ [] := by
      rintro rfl
      cases hs
    have hz := skipIgnored_append hs
    unfold afterKeyword skipName at h ⊢
    rw [hs] at h
    dsimp only at h
    by_cases hc : isNameStart c
    · rw [if_pos hc, proceed_map] at h
      obtain ⟨-, q, hq, hmore⟩ := Firm.read (k := fun _ cs =>
        proceed (skipVariables cs) (resume .header (ahead op))) name_keeps
          (fun _ => firm_variables op) h
      refine ⟨hp, q, hq, ?_⟩
      intro z
      rw [hz z]
      dsimp only
      rw [if_pos hc, proceed_map]
      exact hmore z
    · rw [if_neg hc] at h
      obtain ⟨-, q, hq, hmore⟩ := firm_variables op h
      refine ⟨hp, q, hq, ?_⟩
      intro z
      rw [hz z]
      dsimp only
      rw [if_neg hc]
      exact hmore z

/-- Of a document that is accepted, all but the later definitions is settled. -/
theorem firm_document : Firm document := by
  intro p s h
  rw [document_eq] at h
  split at h
  · next hbrace =>
    obtain ⟨hne, q, hq, hz⟩ := firm_rootField .query h
    refine ⟨?_, q, hq, ?_⟩
    · rintro rfl
      exact hne rfl
    · intro z
      rw [document_eq, skipIgnored_append_of_ne hne, head?_append_of_ne hne, if_pos hbrace]
      exact hz z
  · next hbrace =>
    have hne := name_settles.skipIgnored_ne_nil (proceed_eq_ok h).choose_spec.1
    have hword : ∀ word, Firm fun cs =>
        if word = "query" then afterKeyword .query cs
        else if word = "mutation" then afterKeyword .mutation cs
        else if word = "subscription" then .error (.unsupported .subscription)
        else .error (.malformed (.unexpectedName word)) := by
      intro word
      split
      · exact firm_afterKeyword .query
      · split
        · exact firm_afterKeyword .mutation
        · intro p s h
          split at h <;> cases h
    obtain ⟨hp, q, hq, hz⟩ := Firm.read name_keeps hword h
    refine ⟨hp, q, hq, ?_⟩
    intro z
    rw [document_eq, skipIgnored_append_of_ne hne, head?_append_of_ne hne, if_neg hbrace]
    exact hz z

/-! ## The text behind -/

/-- A document with more text behind it is read up to the same place. -/
theorem parse_append {text : String} {given : Members} {r : RootField}
    (h : parse text given = .ok r) :
    ∃ q, skipDefinitions q = .ok () ∧ ∀ z : String, parse (text ++ z) given =
      ((skipDefinitions (q ++ z.toList)).mapError Problem.malformed).map fun _ => r := by
  unfold parse at h
  obtain ⟨s, hs, rfl⟩ := eq_ok_of_map h
  obtain ⟨-, q, hq, hz⟩ := firm_document hs
  refine ⟨q, hq, ?_⟩
  intro z
  unfold parse
  rw [String.toList_append, hz]
  show (proceed (skipDefinitions (q ++ z.toList)) fun _ => .ok s).map _ = _
  cases skipDefinitions (q ++ z.toList) <;> rfl

/-- **The first definition alone decides.** Text on a line of its own behind a document that is
accepted is checked as it would be without the document: where it holds definitions, or nothing
that counts, the document means what it meant, and else it is refused for what is wrong with that
text. Text that goes on in the same line cannot make it mean something else either. -/
theorem parse_behind {text : String} {given : Members} {r : RootField}
    (h : parse text given = .ok r) (behind : String) :
    (skipDefinitions behind.toList = .ok () → parse (text ++ "\n" ++ behind) given = .ok r) ∧
    (∀ m, skipDefinitions behind.toList = .error m →
      parse (text ++ "\n" ++ behind) given = .error (.malformed m)) ∧
    (skipIgnored behind.toList = [] ∨ (∃ ts, Definitions ts ∧ Laid ts behind.toList) →
      skipDefinitions behind.toList = .ok ()) ∧
    (parse (text ++ behind) given = .ok r ∨
      ∃ m, parse (text ++ behind) given = .error (.malformed m)) := by
  obtain ⟨q, hq, hz⟩ := parse_append h
  have hline : parse (text ++ "\n" ++ behind) given =
      ((skipDefinitions behind.toList).mapError Problem.malformed).map fun _ => r := by
    rw [String.append_assoc, hz, String.toList_append]
    exact congrArg (fun x => (Except.mapError Problem.malformed x).map fun _ => r)
      (skipDefinitions_append_line hq behind.toList)
  refine ⟨?_, ?_, ?_, ?_⟩
  · intro he
    rw [hline, he]
    rfl
  · intro m he
    rw [hline, he]
    rfl
  · rintro (he | ⟨ts, hts, hl⟩)
    · exact skipDefinitions_nil he
    · exact skipDefinitions_written hts hl.leads_nil
  · rw [hz]
    cases skipDefinitions (q ++ behind.toList) with
    | error m => exact Or.inr ⟨m, rfl⟩
    | ok u => exact Or.inl rfl

/-- A brace in a comment at the end of the document, and a fragment behind it or a stray brace. -/
theorem parse_behind_comment :
    parse "\x7b me \x7d # \x7d" [] = .ok ⟨.query, "me", none, []⟩ ∧
      parse ("\x7b me \x7d # \x7d" ++ "\n" ++ "fragment F on User \x7b login \x7d") [] =
        .ok ⟨.query, "me", none, []⟩ ∧
      parse ("\x7b me \x7d # \x7d" ++ "\n" ++ "\x7d") [] =
        .error (.malformed (.unexpectedChar '\x7d')) := by
  have h : parse "\x7b me \x7d # \x7d" [] = .ok ⟨.query, "me", none, []⟩ := by
    have hmade : (parse "\x7b me \x7d # \x7d" []).toOption.map (fun r =>
        (r.operation, r.name, r.aliased, r.arguments.isEmpty)) =
          some (.query, "me", none, true) := by
      decide +kernel
    cases hp : parse "\x7b me \x7d # \x7d" [] with
    | error e =>
      rw [hp] at hmade
      cases hmade
    | ok r =>
      obtain ⟨operation, name, called, arguments⟩ := r
      rw [hp] at hmade
      simp only [Except.toOption, Option.map_some, Option.some.injEq, Prod.mk.injEq,
        List.isEmpty_iff] at hmade
      obtain ⟨rfl, rfl, rfl, rfl⟩ := hmade
      rfl
  have hfragment : skipDefinitions "fragment F on User \x7b login \x7d".toList = .ok () := by
    have hok : (skipDefinitions "fragment F on User \x7b login \x7d".toList).isOk = true := by
      decide +kernel
    cases hd : skipDefinitions "fragment F on User \x7b login \x7d".toList with
    | ok u => rfl
    | error m =>
      rw [hd] at hok
      cases hok
  have hbrace : skipDefinitions "\x7d".toList = .error (.unexpectedChar '\x7d') := by
    have hskip : skipIgnored "\x7d".toList = ['\x7d'] := by decide
    rw [skipDefinitions_cons hskip, if_neg (by decide), if_neg (by decide)]
  exact ⟨h, (parse_behind h _).1 hfragment, (parse_behind h _).2.1 _ hbrace⟩

end Intranet.Graphql
