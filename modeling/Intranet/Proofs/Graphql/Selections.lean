import Intranet.Proofs.Graphql.Completeness

/-!
# Operations that ask for more than one root field are refused

The readers of the first field stop exactly where the second selection begins: arguments,
directives and the selection below the field end at their own brackets, whatever stands in strings
between them. What stands behind the selections is never looked at, and neither are the variables.

Main results:

* `rootField_several`: a field is not read on into the selection behind it;
* `rootField_fragment`: a fragment is not read as a field;
* `parse_several`: an operation with several selections, or with a fragment, is refused.
-/

namespace Intranet.Graphql

/-! ## Selections -/

/-- What is written behind the points of an inline fragment: a type condition, or none. -/
inductive TypeCondition : List Token → Prop where
  | none : TypeCondition []
  | on {type : String} : TypeCondition [.name "on", .name type]

/-- A selection of an operation: a field under its own name, which is no fragment, or a spread or
an inline fragment, which have no name here. Literals have the values that are read: lists and
objects up to `maxDepth`, integers of 64 bits, finite doubles and strings as in `Quoted`. -/
inductive Selects : Option String → List Token → Prop where
  | field {a : Option String} {f : String} {ls : List (String × Literal)}
    {args dirs selection : List Token} (hargs : Arguments ls args) (hdirs : DirectiveList dirs)
    (hselection : Bracketed .selection selection) :
    Selects (some f) (aliasTokens a ++ .name f :: (args ++ (dirs ++ selection)))
  | spread {fragment : String} {dirs : List Token} (hdirs : DirectiveList dirs) :
    Selects none (.spread :: .name fragment :: dirs)
  | inline {condition dirs selection : List Token} (hcondition : TypeCondition condition)
    (hdirs : DirectiveList dirs) (hselection : Balanced .selection selection) :
    Selects none (.spread :: (condition ++ (dirs ++
      .mark '\x7b' :: (selection ++ [.mark '\x7d']))))

/-- What comes next is a name or the points of a fragment. -/
def StartsSelection (ts : List Token) : Prop :=
  ∃ t us, ts = t :: us ∧ (t = .spread ∨ ∃ n, t = .name n)

theorem Selects.starts {a : Option String} {ts : List Token} (h : Selects a ts) :
    StartsSelection ts := by
  cases h with
  | @field a _ _ _ _ _ _ _ _ =>
    cases a with
    | none => exact ⟨_, _, rfl, .inr ⟨_, rfl⟩⟩
    | some a => exact ⟨_, _, rfl, .inr ⟨_, rfl⟩⟩
  | spread _ => exact ⟨_, _, rfl, .inl rfl⟩
  | inline _ _ _ => exact ⟨_, _, rfl, .inl rfl⟩

theorem StartsSelection.append {ts : List Token} (h : StartsSelection ts) (us : List Token) :
    StartsSelection (ts ++ us) := by
  obtain ⟨t, vs, rfl, ht⟩ := h
  exact ⟨t, vs ++ us, rfl, ht⟩

/-- No punctuation mark comes next. -/
theorem StartsSelection.lacks {ts : List Token} (h : StartsSelection ts) (c : Char) :
    Lacks c ts := by
  obtain ⟨t, us, rfl, ht⟩ := h
  refine ⟨t, us, rfl, ?_⟩
  rcases ht with rfl | ⟨n, rfl⟩ <;> simp

section Document

variable {op : Operation} {ts us : List Token} {cs rest : List Char}

theorem Leads.startsSelection (h : Leads ts cs rest) (hts : StartsSelection ts) :
    startsSelection (skipIgnored cs) = true := by
  obtain ⟨t, us, rfl, ht⟩ := hts
  rcases ht with rfl | ⟨n, rfl⟩
  · obtain ⟨cs₁, hs, -⟩ := h.uncons
    rw [hs]
    rfl
  · obtain ⟨c, w, hs, hc⟩ := h.name_head
    rw [hs, startsSelection_eq, hc, Bool.or_true]

/-- A field is not read on into the selection behind it. -/
theorem rootField_several {f : String} (h : Selects (some f) ts) (hus : StartsSelection us)
    (hl : Leads (.mark '\x7b' :: (ts ++ us)) cs rest) :
    rootField op cs = .error (.unsupported (.secondField f)) := by
  cases h with
  | field hargs hdirs hselection =>
    simp only [List.append_assoc, List.cons_append] at hl
    obtain ⟨cs₁, hroot, h₁⟩ := rootField_written hargs hdirs hselection (fun c _ => hus.lacks c) hl
    rw [hroot, finish_eq, if_pos (h₁.startsSelection hus)]

/-- A fragment is not read as a field. -/
theorem rootField_fragment (h : Selects none ts)
    (hl : Leads (.mark '\x7b' :: (ts ++ us)) cs rest) :
    rootField op cs = .error (.unsupported .rootFragment) := by
  obtain ⟨vs, hvs⟩ : ∃ vs, ts = .spread :: vs := by
    cases h with
    | spread _ => exact ⟨_, rfl⟩
    | inline _ _ _ => exact ⟨_, rfl⟩
  obtain ⟨cs₁, hopen, h₁⟩ := hl.expect
  rw [hvs] at h₁
  obtain ⟨cs₂, hs, -⟩ := h₁.uncons
  rw [rootField_eq, hopen, proceed_ok, hs]
  rfl

/-! ## Operations -/

/-- What stands before the opening brace of an operation that is executed, or of a subscription,
which is not. -/
inductive Start : Option Operation → List Token → Prop where
  | executed {op : Operation} {ts : List Token} (h : Heading op ts) : Start (some op) ts
  | subscription {ts : List Token} (h : Headed "subscription" ts) : Start none ts

theorem document_subscription (h : Headed "subscription" ts) (hl : Leads (ts ++ us) cs rest) :
    document cs = .error (.unsupported .subscription) := by
  cases h with
  | mk _ _ =>
    obtain ⟨c, w, hs, hc⟩ := Leads.name_head hl
    obtain ⟨cs₁, hname, -⟩ := Leads.name hl
    have hbrace : ¬(skipIgnored cs).head? = some '\x7b' := by
      rw [hs]
      simpa using ne_of_eq_true hc (d := '\x7b') (by decide)
    rw [document_eq, if_neg hbrace, hname]
    rfl

/-- Why an operation is refused that has several selections, or a fragment first. -/
def rejection : Option Operation → Option String → Unsupported
  | none, _ => .subscription
  | some _, none => .rootFragment
  | some _, some f => .secondField f

theorem document_several {kind : Option Operation} {first : Option String}
    {more : List (Option String)} {head : List Token} (hhead : Start kind head)
    (hts : Sequence Selects (first :: more) ts) (hmany : more ≠ [] ∨ first = none)
    (hl : Leads (head ++ .mark '\x7b' :: (ts ++ us)) cs rest) :
    document cs = .error (.unsupported (rejection kind first)) := by
  cases hhead with
  | subscription h => exact document_subscription h hl
  | executed h =>
    obtain ⟨cs₁, hdoc, h₁⟩ := document_written h hl
    rw [hdoc]
    cases hts with
    | cons hfirst hmore =>
      rw [List.append_assoc] at h₁
      cases first with
      | none => exact rootField_fragment hfirst h₁
      | some f =>
        cases hmore with
        | nil => simp at hmany
        | cons hsecond _ => exact rootField_several hfirst ((hsecond.starts.append _).append _) h₁

end Document

/-- **Only one root field is ever executed.** An operation that has several selections, or a
fragment for its only one, is refused, whatever the variables are and whatever stands behind it. -/
theorem parse_several {kind : Option Operation} {first : Option String}
    {more : List (Option String)} {head ts : List Token} {text : String}
    (hhead : Start kind head) (hts : Sequence Selects (first :: more) ts)
    (hmany : more ≠ [] ∨ first = none)
    (hl : Laid (head ++ .mark '\x7b' :: (ts ++ [.mark '\x7d'])) text.toList)
    (given : Members) (rest : String) :
    parse (text ++ rest) given = .error (.unsupported (rejection kind first)) ∧
      (Problem.unsupported (rejection kind first)).code = "GRAPHQL_VALIDATION_FAILED" := by
  have hleads : Leads (head ++ .mark '\x7b' :: (ts ++ [.mark '\x7d']))
      (text.toList ++ rest.toList) rest.toList := by
    rw [← List.cons_append, ← List.append_assoc] at hl ⊢
    exact hl.leads_mark rest.toList
  have hdoc := document_several hhead hts hmany hleads
  refine ⟨?_, rfl⟩
  unfold parse
  rw [String.toList_append, hdoc]
  rfl

/-! ## A field with a brace in a string, and a fragment -/

/-- A field with an alias and a variable, whose selection has a closing brace in a string. -/
def savedField : List Token :=
  [.name "saved", .mark ':', .name "putFile", .mark '(', .name "path", .mark ':', .mark '$',
    .name "p", .mark ')', .mark '\x7b', .name "name", .mark '(', .name "as", .mark ':',
    .string ['"', '\x7d', '"'], .mark ')', .mark '\x7d']

/-- A spread with a directive. -/
def skippedSpread : List Token :=
  [.spread, .name "Rest", .mark '@', .name "skip", .mark '(', .name "if", .mark ':',
    .name "false", .mark ')']

/-- Both of them in one mutation. -/
def crowdedTokens : List Token :=
  [.name "mutation"] ++ .mark '\x7b' :: ((savedField ++ skippedSpread) ++ [.mark '\x7d'])

theorem crowdedTokens_fit : ∀ t ∈ crowdedTokens, t.Fits := by
  have hquoted : ∃ s, Quoted ['"', '\x7d', '"'] s := ⟨_, .line (.raw (by decide) .nil)⟩
  simp only [crowdedTokens, savedField, skippedSpread, List.cons_append, List.nil_append,
    List.forall_mem_cons, Token.Fits, hquoted, true_and, List.not_mem_nil, false_implies,
    implies_true, and_true]
  decide

theorem selects_savedField : Selects (some "putFile") savedField := by
  have hpath : Spelled maxDepth (.ref "p") [.mark '$', .name "p"] := Spelling.ref
  have hargs := Arguments.some (.cons (.mk (n := "path") hpath) .nil)
  have hselection : Balanced .selection [.name "name", .mark '(', .name "as", .mark ':',
      .string ['"', '\x7d', '"'], .mark ')'] :=
    .token (by decide) (by decide) <| .token (by decide) (by decide) <|
      .token (by decide) (by decide) <| .token (by decide) (by decide) <|
      .token (by decide) (by decide) <| .token (by decide) (by decide) .nil
  have h : Selects (some "putFile") (aliasTokens (some "saved") ++ _) :=
    .field hargs .nil (.some hselection)
  exact h

theorem selects_skippedSpread : Selects none skippedSpread := by
  have hif : Spelled maxDepth (.ofName "false") [.name "false"] := Spelling.name
  have hargs := Arguments.some (.cons (.mk (n := "if") hif) .nil)
  have h : Selects none (.spread :: .name "Rest" :: _) := .spread (.cons (n := "skip") hargs .nil)
  exact h

theorem parse_crowded :
    (Start (some .mutation) [.name "mutation"] ∧
      Sequence Selects [some "putFile", none] (savedField ++ skippedSpread) ∧
      Laid crowdedTokens (String.ofList (spaced crowdedTokens)).toList) ∧
    parse (String.ofList (spaced crowdedTokens) ++ " # \x7d") [] =
      .error (.unsupported (.secondField "putFile")) := by
  have hhead : Start (some .mutation) [.name "mutation"] :=
    .executed (.long (.mk (n := none) .none .nil))
  have hts : Sequence Selects [some "putFile", none] (savedField ++ skippedSpread) :=
    .cons selects_savedField (.cons selects_skippedSpread .nil)
  have hl : Laid crowdedTokens (String.ofList (spaced crowdedTokens)).toList := by
    rw [String.toList_ofList]
    exact laid_spaced crowdedTokens_fit
  exact ⟨⟨hhead, hts, hl⟩, (parse_several hhead hts (.inl (by decide)) hl [] " # \x7d").1⟩

end Intranet.Graphql
