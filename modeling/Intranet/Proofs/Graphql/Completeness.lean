import Intranet.Proofs.Graphql.Grammar

/-!
# Every document that writes a root field is read as that field

What is passed over is followed token by token: a balanced group moves the reader behind it, a
header to its brace, and later definitions to the end of the document.

Main results:

* `Balanced.skip`: a balanced group leaves the depth as it was;
* `skipDefinitions_written`: well-formed definitions are accepted;
* `parse_written`: each layout of each writing of a root field is read as that root field.
-/

namespace Intranet.Graphql

/-! ## Skipped groups -/

section Groups

variable {g : Group} {ts : List Token} {cs rest : List Char}

theorem opening_mem_marks (g : Group) : g.opening ∈ marks := by cases g <;> decide

theorem closing_mem_marks (g : Group) : g.closing ∈ marks := by cases g <;> decide

/-- Characters of no interest to a group. -/
def Plain (g : Group) (w : List Char) : Prop :=
  ∀ c ∈ w, c ≠ '"' ∧ c ≠ g.opening ∧ c ≠ g.closing

theorem skipGroup_plain {w : List Char} (hw : Plain g w) (depth : Nat) (cs : List Char) :
    skipGroup g depth (w ++ cs) = skipGroup g depth cs := by
  induction w with
  | nil => rfl
  | cons c w ih =>
    obtain ⟨hq, ho, hc⟩ := hw c List.mem_cons_self
    rw [List.cons_append, skipGroup_other hq ho hc,
      ih fun d hd => hw d (List.mem_cons_of_mem c hd)]

/-- Characters that are no punctuation marks and no quotes are plain. -/
theorem plain_of_forall {f : Char → Bool} {w : List Char} (hw : ∀ c ∈ w, f c = true)
    (hm : ∀ c ∈ marks, f c = false) (hq : f '"' = false) : Plain g w := by
  intro c hc
  refine ⟨ne_of_eq_true (hw c hc) hq, ?_, ?_⟩
  · exact ne_of_eq_true (hw c hc) (hm _ (opening_mem_marks g))
  · exact ne_of_eq_true (hw c hc) (hm _ (closing_mem_marks g))

theorem Gap.plain {gap : List Char} (h : Gap gap) : Plain g gap :=
  plain_of_forall h (fun c hc => (mark_spec hc).1) (by decide)

/-- A token other than a string and the brackets of the group is plain. -/
theorem Token.Fits.plain {t : Token} (ht : t.Fits) (hs : ∀ w, t ≠ .string w)
    (ho : t ≠ .mark g.opening) (hc : t ≠ .mark g.closing) : Plain g t.text := by
  cases t with
  | mark c =>
    intro d hd
    obtain rfl : d = c := by simpa [Token.text] using hd
    exact ⟨(mark_spec ht).2.2.2.2.1, fun h => ho (by rw [h]), fun h => hc (by rw [h])⟩
  | spread =>
    intro d hd
    obtain rfl : d = '.' := by simpa [Token.text] using hd
    refine ⟨by decide, ?_, ?_⟩ <;> cases g <;> decide
  | name n =>
    exact plain_of_forall (IsName.nameChars ht) (fun c hc => (mark_spec hc).2.2.1) (by decide)
  | number t =>
    obtain ⟨c, w, rfl, -, hw⟩ := ht
    exact plain_of_forall hw (fun c hc => (mark_spec hc).2.2.2.1) (by decide)
  | string t => exact absurd rfl (hs t)

/-- A token that is no bracket of the group is passed over. -/
theorem Leads.skip_token {t : Token} (h : Leads (t :: ts) cs rest) (ho : t ≠ .mark g.opening)
    (hc : t ≠ .mark g.closing) :
    ∃ cs₁, (∀ depth, skipGroup g depth cs = skipGroup g depth cs₁) ∧ Leads ts cs₁ rest := by
  obtain ⟨gap, cs₁, rfl, hgap, ht, hend, h₁⟩ := h.split
  refine ⟨cs₁, fun depth => ?_, h₁⟩
  rw [skipGroup_plain hgap.plain]
  by_cases hs : ∃ w, t = .string w
  · obtain ⟨w, rfl⟩ := hs
    obtain ⟨s, hw⟩ := ht
    have hread := string_of_endsBefore hw hend
    obtain ⟨v, rfl⟩ := hw.head
    show skipGroup g depth ('"' :: (v ++ cs₁)) = _
    rw [skipGroup_quote, ← List.cons_append, hread]
    rfl
  · exact skipGroup_plain (ht.plain (fun w hw => hs ⟨w, hw⟩) ho hc) depth cs₁

theorem Leads.skip_opening (h : Leads (.mark g.opening :: ts) cs rest) :
    ∃ cs₁, (∀ depth, skipGroup g depth cs = skipGroup g (depth + 1) cs₁) ∧ Leads ts cs₁ rest := by
  obtain ⟨gap, cs₁, rfl, hgap, -, -, h₁⟩ := h.split
  refine ⟨cs₁, fun depth => ?_, h₁⟩
  rw [skipGroup_plain hgap.plain]
  exact skipGroup_open g depth cs₁

theorem Leads.skip_closing (h : Leads (.mark g.closing :: ts) cs rest) :
    ∃ cs₁, skipGroup g 0 cs = .ok cs₁ ∧
      (∀ depth, skipGroup g (depth + 1) cs = skipGroup g depth cs₁) ∧ Leads ts cs₁ rest := by
  obtain ⟨gap, cs₁, rfl, hgap, -, -, h₁⟩ := h.split
  refine ⟨cs₁, ?_, fun depth => ?_, h₁⟩
  · rw [skipGroup_plain hgap.plain]
    exact skipGroup_end g cs₁
  · rw [skipGroup_plain hgap.plain]
    exact skipGroup_close g depth cs₁

/-- A balanced group leaves the depth as it was. -/
theorem Balanced.skip (h : Balanced g ts) {us : List Token} (hl : Leads (ts ++ us) cs rest) :
    ∃ cs₁, (∀ depth, skipGroup g depth cs = skipGroup g depth cs₁) ∧ Leads us cs₁ rest := by
  induction h generalizing cs us with
  | nil => exact ⟨cs, fun _ => rfl, hl⟩
  | token ho hc _ ih =>
    obtain ⟨cs₁, h₁, hl₁⟩ := Leads.skip_token hl ho hc
    obtain ⟨cs₂, h₂, hl₂⟩ := ih hl₁
    exact ⟨cs₂, fun depth => (h₁ depth).trans (h₂ depth), hl₂⟩
  | nested _ _ ihi ih =>
    rw [List.cons_append, List.append_assoc] at hl
    obtain ⟨cs₁, h₁, hl₁⟩ := Leads.skip_opening hl
    obtain ⟨cs₂, h₂, hl₂⟩ := ihi hl₁
    obtain ⟨cs₃, -, h₃, hl₃⟩ := Leads.skip_closing hl₂
    obtain ⟨cs₄, h₄, hl₄⟩ := ih hl₃
    refine ⟨cs₄, fun depth => ?_, hl₄⟩
    rw [h₁, h₂, h₃, h₄]

/-- A balanced group is passed over with its closing bracket. -/
theorem skipGroup_written (h : Balanced g ts) {us : List Token}
    (hl : Leads (ts ++ .mark g.closing :: us) cs rest) :
    ∃ cs₁, skipGroup g 0 cs = .ok cs₁ ∧ Leads us cs₁ rest := by
  obtain ⟨cs₁, h₁, hl₁⟩ := h.skip hl
  obtain ⟨cs₂, h₂, -, hl₂⟩ := Leads.skip_closing hl₁
  exact ⟨cs₂, (h₁ 0).trans h₂, hl₂⟩

/-- A group between its brackets is passed over if it is there. -/
theorem bracketed_written {F : List Char → Except Malformed (List Char)}
    (hF : ∀ cs, F cs = (eat? g.opening cs).elim (.ok (skipIgnored cs)) (skipGroup g 0))
    (h : Bracketed g ts) {us : List Token} (hl : Leads (ts ++ us) cs rest)
    (hus : Lacks g.opening us) : ∃ cs₁, F cs = .ok cs₁ ∧ Leads us cs₁ rest := by
  rw [hF]
  cases h with
  | none =>
    refine ⟨skipIgnored cs, ?_, hl.skip⟩
    rw [Leads.eat?_lacks hl (opening_mem_marks g) hus]
    rfl
  | some h =>
    rw [List.cons_append, List.append_assoc] at hl
    obtain ⟨inside, he, hin⟩ := Leads.eat? hl
    obtain ⟨cs₁, hgroup, h₁⟩ := skipGroup_written h hin
    refine ⟨cs₁, ?_, h₁⟩
    rw [he]
    exact hgroup

theorem Bracketed.lacks {c : Char} (h : Bracketed g ts) (hc : c ≠ g.opening) {us : List Token}
    (hus : Lacks c us) : Lacks c (ts ++ us) := by
  cases h with
  | none => exact hus
  | some _ => exact ⟨_, _, rfl, by simpa using hc.symm⟩

end Groups

/-! ## Later definitions -/

section Later

variable {ts us : List Token} {cs rest : List Char}

theorem skipHeader_nameChars {w : List Char} (hw : ∀ c ∈ w, isNameChar c = true)
    (cs : List Char) : skipHeader (w ++ cs) = skipHeader cs := by
  induction w with
  | nil => rfl
  | cons c w ih =>
    have hc : isNameChar c = true := hw c List.mem_cons_self
    have hi : isIgnored c = false := by
      refine Bool.eq_false_iff.mpr fun hi => ?_
      have := hc.symm.trans (isIgnored_spec hi).1
      cases this
    have hs : skipIgnored (c :: (w ++ cs)) = c :: (w ++ cs) := by
      simp [skipIgnored, skipFrom, hi, ne_of_eq_true hc (d := '#') (by decide)]
    have hh : isHeaderChar c = true := by
      unfold isHeaderChar
      rw [hc]
      rfl
    rw [List.cons_append, skipHeader_cons hs, if_neg (ne_of_eq_true hc (by decide)),
      if_neg (ne_of_eq_true hc (by decide)), if_neg (ne_of_eq_true hc (by decide)), if_pos hh]
    exact ih fun d hd => hw d (List.mem_cons_of_mem c hd)

theorem headerMark_spec {c : Char} (h : c ∈ headerMarks) :
    c ≠ '\x7b' ∧ c ≠ '(' ∧ c ≠ '"' ∧ isHeaderChar c = true := by
  have hall : (headerMarks.all fun c =>
      decide (c ≠ '\x7b' ∧ c ≠ '(' ∧ c ≠ '"' ∧ isHeaderChar c = true)) = true := by decide
  exact of_decide_eq_true (List.all_eq_true.mp hall c h)

/-- A header is passed over with the brace behind it. -/
theorem skipHeader_written (h : Header ts) (hl : Leads (ts ++ .mark '\x7b' :: us) cs rest) :
    ∃ cs₁, skipHeader cs = .ok cs₁ ∧ Leads us cs₁ rest := by
  induction h generalizing cs with
  | nil =>
    obtain ⟨cs₁, hs, h₁⟩ := Leads.mark hl
    exact ⟨cs₁, by rw [skipHeader_cons hs, if_pos rfl], h₁⟩
  | name _ ih =>
    obtain ⟨cs₁, hs, hn, -, h₁⟩ := Leads.uncons hl
    obtain ⟨cs₂, hskip, h₂⟩ := ih h₁
    refine ⟨cs₂, ?_, h₂⟩
    rw [← skipHeader_skipIgnored, hs]
    exact (skipHeader_nameChars (IsName.nameChars hn) cs₁).trans hskip
  | mark hc _ ih =>
    obtain ⟨hb, hp, hq, hh⟩ := headerMark_spec hc
    obtain ⟨cs₁, hs, h₁⟩ := Leads.mark hl
    obtain ⟨cs₂, hskip, h₂⟩ := ih h₁
    refine ⟨cs₂, ?_, h₂⟩
    rw [skipHeader_cons hs, if_neg hb, if_neg hp, if_neg hq, if_pos hh, hskip]
  | group hi _ ih =>
    rw [List.cons_append, List.append_assoc] at hl
    obtain ⟨inside, hs, hin⟩ := Leads.mark hl
    obtain ⟨behind, hgroup, hbehind⟩ := skipGroup_written hi hin
    obtain ⟨cs₁, hskip, h₁⟩ := ih hbehind
    refine ⟨cs₁, ?_, h₁⟩
    rw [skipHeader_cons hs, if_neg (by decide), if_pos rfl, hgroup]
    exact hskip

/-- Well-formed definitions are accepted up to the end of the document. -/
theorem skipDefinitions_written (h : Definitions ts) (hl : Leads ts cs []) :
    skipDefinitions cs = .ok () := by
  induction h generalizing cs with
  | nil =>
    cases hl with
    | nil hs => exact skipDefinitions_nil hs
  | short hi _ ih =>
    obtain ⟨inside, hs, hin⟩ := hl.mark
    obtain ⟨behind, hgroup, hbehind⟩ := skipGroup_written hi hin
    rw [skipDefinitions_cons hs, if_pos rfl, hgroup]
    exact ih hbehind
  | long hw hh hi hlater ih =>
    rename_i word header inner later
    obtain ⟨c, w, hs, hc⟩ := hl.name_head
    obtain ⟨behind, hname, hbehind⟩ := hl.name
    obtain ⟨inside, hheader, hin⟩ := skipHeader_written hh hbehind
    obtain ⟨rest, hgroup, hrest⟩ := skipGroup_written hi hin
    have hname : name (c :: w) = .ok (word, behind) := by
      rw [← hs, name_skipIgnored, hname]
    rw [skipDefinitions_cons hs, if_neg (ne_of_eq_true hc (by decide)), if_pos hc, hname]
    show (if word ∈ definitionWords then _ else _) = _
    rw [if_pos hw, hheader]
    show (skipGroup .laterSelection 0 inside).bind skipDefinitions = _
    rw [hgroup]
    exact ih hrest

end Later

/-! ## The root field and its operation -/

section Document

variable {ts us : List Token} {cs rest : List Char}

theorem skipVariables_eq (cs : List Char) : skipVariables cs =
    (eat? '(' cs).elim (.ok (skipIgnored cs)) (skipGroup .header 0) := by
  unfold skipVariables
  cases eat? '(' cs <;> rfl

theorem skipSelection_eq (cs : List Char) : skipSelection cs =
    (eat? '\x7b' cs).elim (.ok (skipIgnored cs)) (skipGroup .selection 0) := by
  unfold skipSelection
  cases eat? '\x7b' cs <;> rfl

/-- The name of an operation is passed over if it is there. -/
theorem skipName_written {n : Option String}
    (hl : Leads ((n.map Token.name).toList ++ us) cs rest)
    (hus : ∃ t vs, us = t :: vs ∧ ∀ m, t ≠ .name m) :
    ∃ cs₁, skipName cs = .ok cs₁ ∧ Leads us cs₁ rest := by
  unfold skipName
  cases n with
  | none =>
    obtain ⟨t, vs, rfl, hname⟩ := hus
    obtain ⟨cs₁, hs, ht, -, -⟩ := Leads.uncons hl
    obtain ⟨c, w, hw, hstart⟩ := ht.starts
    rw [hw] at hs
    refine ⟨skipIgnored cs, ?_, hl.skip⟩
    rw [hs]
    show (if isNameStart c then _ else _) = _
    rw [hstart.not_isNameStart hname]
    rfl
  | some m =>
    obtain ⟨c, w, hs, hc⟩ := Leads.name_head hl
    obtain ⟨cs₁, hname, h₁⟩ := Leads.name hl
    refine ⟨cs₁, ?_, h₁⟩
    rw [hs]
    show (if isNameStart c then _ else _) = _
    rw [if_pos hc, ← hs, name_skipIgnored, hname]
    rfl

/-- A field name is read with its alias if it has one. -/
theorem fieldName_written {a : Option String} {f : String}
    (hl : Leads (aliasTokens a ++ .name f :: us) cs rest) (hus : Lacks ':' us) :
    ∃ cs₁, fieldName cs = .ok ((a, f), cs₁) ∧ Leads us cs₁ rest := by
  rw [fieldName_eq]
  cases a with
  | none =>
    obtain ⟨cs₁, hname, h₁⟩ := Leads.name hl
    refine ⟨skipIgnored cs₁, ?_, h₁.skip⟩
    rw [hname]
    show (eat? ':' cs₁).elim _ _ = _
    rw [h₁.eat?_lacks (by decide) hus]
    rfl
  | some a =>
    obtain ⟨cs₁, hname, h₁⟩ := Leads.name hl
    obtain ⟨cs₂, hcolon, h₂⟩ := h₁.eat?
    obtain ⟨cs₃, hfield, h₃⟩ := h₂.name
    refine ⟨cs₃, ?_, h₃⟩
    rw [hname]
    show (eat? ':' cs₁).elim _ _ = _
    rw [hcolon]
    show (name cs₂).map _ = _
    rw [hfield]
    rfl

/-- The root field is read with all that belongs to it, and nothing else. -/
theorem rootField_written {op : Operation} {a : Option String} {f : String}
    {ls : List (String × Literal)} {args dirs selection : List Token} (hargs : Arguments ls args)
    (hdirs : DirectiveList dirs) (hselection : Bracketed .selection selection)
    (hus : ∀ c ∈ [':', '(', '@', '\x7b'], Lacks c us)
    (hl : Leads (.mark '\x7b' :: (aliasTokens a ++ .name f ::
      (args ++ (dirs ++ (selection ++ us))))) cs rest) :
    ∃ cs₁, rootField op cs = finish ⟨op, f, a, ls⟩ cs₁ ∧ Leads us cs₁ rest := by
  have hsel : ∀ c ∈ [':', '(', '@'], Lacks c (selection ++ us) := by
    intro c hc
    refine hselection.lacks ?_ (hus c ?_)
    · rintro rfl
      revert hc
      decide
    · exact List.mem_append_left ['\x7b'] hc
  have hdir : ∀ c ∈ [':', '('], Lacks c (dirs ++ (selection ++ us)) := by
    intro c hc
    refine hdirs.lacks ?_ (hsel c ?_)
    · rintro rfl
      revert hc
      decide
    · exact List.mem_append_left ['@'] hc
  obtain ⟨cs₁, hopen, h₁⟩ := hl.expect
  obtain ⟨cs₂, hname, h₂⟩ := fieldName_written h₁.skip
    (hargs.lacks (by decide) (hdir ':' (by decide)))
  obtain ⟨cs₃, hfield, h₃⟩ := fieldArguments_read hargs h₂ (hdir '(' (by decide))
  obtain ⟨cs₄, hdirectives, h₄⟩ := skipDirectives_read hdirs h₃ (hsel '@' (by decide))
    (hsel '(' (by decide))
  obtain ⟨cs₅, hskip, h₅⟩ := bracketed_written skipSelection_eq hselection h₄
    (hus '\x7b' (by decide))
  have hfragment : startsFragment (skipIgnored cs₁) = false := by
    have hfirst : ∃ n vs, aliasTokens a ++ .name f :: (args ++ (dirs ++ (selection ++ us))) =
        .name n :: vs := by
      cases a with
      | none => exact ⟨_, _, rfl⟩
      | some a => exact ⟨_, _, rfl⟩
    obtain ⟨n, vs, hvs⟩ := hfirst
    rw [hvs] at h₁
    obtain ⟨c, w, hs, hc⟩ := h₁.name_head
    rw [hs]
    have hdot : c ≠ '.' := ne_of_eq_true hc (by decide)
    simp [startsFragment, hdot]
  refine ⟨cs₅, ?_, h₅⟩
  rw [rootField_eq, hopen, proceed_ok, hfragment, if_neg (by decide), hname, proceed_ok]
  dsimp only
  rw [hfield, proceed_ok]
  dsimp only
  unfold afterArguments
  rw [hdirectives, proceed_ok, hskip, proceed_ok]

/-- What ends the operation: its closing brace, and definitions behind it. -/
theorem finish_written {later : List Token} (s : Selection) (h : Definitions later)
    (hl : Leads (.mark '\x7d' :: later) cs []) : finish s cs = .ok s := by
  obtain ⟨cs₁, hs, -⟩ := hl.mark
  obtain ⟨behind, he, hbehind⟩ := hl.expect
  rw [finish_eq, hs, if_neg (by simp [startsSelection, isNameStart]), he, proceed_ok]
  show proceed (skipDefinitions behind) _ = _
  rw [skipDefinitions_written h hbehind]
  rfl

/-- What belongs to a keyword is passed over. -/
theorem afterKeyword_written {word : String} (op : Operation) (h : Headed word ts)
    (hl : Leads (ts ++ .mark '\x7b' :: us) cs rest) :
    ∃ cs₁ cs₂, name cs = .ok (word, cs₁) ∧ afterKeyword op cs₁ = rootField op cs₂ ∧
      Leads (.mark '\x7b' :: us) cs₂ rest := by
  cases h with
  | mk hv hd =>
    rename_i n vars dirs
    rw [List.cons_append, List.append_assoc, List.append_assoc] at hl
    have hbrace : ∀ c, c ≠ '\x7b' → Lacks c (.mark '\x7b' :: us) := fun c hc =>
      ⟨_, _, rfl, by simpa using hc.symm⟩
    obtain ⟨cs₁, hword, h₁⟩ := Leads.name hl
    obtain ⟨cs₂, hname, h₂⟩ := skipName_written h₁ (by
      cases hv with
      | none =>
        cases hd with
        | nil => exact ⟨_, _, rfl, by simp⟩
        | cons _ _ => exact ⟨_, _, rfl, by simp⟩
      | some _ => exact ⟨_, _, rfl, by simp⟩)
    obtain ⟨cs₃, hvars, h₃⟩ := bracketed_written skipVariables_eq hv h₂
      (hd.lacks (by decide) (hbrace '(' (by decide)))
    obtain ⟨cs₄, hdirs, h₄⟩ := skipDirectives_read hd h₃ (hbrace '@' (by decide))
      (hbrace '(' (by decide))
    refine ⟨cs₁, cs₄, hword, ?_, h₄⟩
    unfold afterKeyword
    rw [hname, proceed_ok, hvars, proceed_ok]
    show proceed (skipDirectives cs₃) (rootField op) = _
    rw [hdirs, proceed_ok]

/-- What stands before the opening brace tells the operation. -/
theorem document_written {op : Operation} {head : List Token} (hhead : Heading op head)
    (hl : Leads (head ++ .mark '\x7b' :: us) cs rest) :
    ∃ cs₁, document cs = rootField op cs₁ ∧ Leads (.mark '\x7b' :: us) cs₁ rest := by
  rw [document_eq]
  cases hhead with
  | short =>
    obtain ⟨cs₁, hs, -⟩ := Leads.mark hl
    refine ⟨skipIgnored cs, ?_, hl.skip⟩
    rw [hs]
    rfl
  | long h =>
    obtain ⟨cs₁, cs₂, hname, hafter, h₂⟩ := afterKeyword_written op h hl
    refine ⟨cs₂, ?_, h₂⟩
    have hbrace : ¬(skipIgnored cs).head? = some '\x7b' := by
      cases h with
      | mk _ _ =>
        obtain ⟨c, w, hs, hc⟩ := Leads.name_head hl
        rw [hs]
        simpa using ne_of_eq_true hc (d := '\x7b') (by decide)
    rw [if_neg hbrace, hname, proceed_ok]
    cases op with
    | query => exact hafter
    | mutation => exact hafter

end Document

/-- Each layout of each writing of a root field is read as that root field. -/
theorem parse_written {given : Members} {r : RootField} {ts : List Token} {text : String}
    (h : Writes given r ts) (hl : Laid ts text.toList) : parse text given = .ok r := by
  cases h with
  | mk hhead hargs hdirs hselection hlater =>
    rename_i head args dirs selection later
    have hbrace : ∀ c ∈ [':', '(', '@', '\x7b'], Lacks c (.mark '\x7d' :: later) := by
      intro c hc
      refine ⟨_, _, rfl, ?_⟩
      rintro ⟨⟩
      revert hc
      decide
    obtain ⟨ls, hls, hvalues⟩ := hargs.spelled
    obtain ⟨cs₁, hdoc, h₁⟩ := document_written hhead.heading hl.leads_nil
    obtain ⟨cs₂, hroot, h₂⟩ := rootField_written hls hdirs.spelled hselection hbrace h₁
    unfold parse
    rw [hdoc, hroot, finish_written _ hlater h₂]
    show Except.ok (RootField.mk r.operation r.name r.aliased (Members.ofList
      (ls.map fun l => (l.1, l.2.resolve given)))) = .ok r
    rw [hvalues]

/-! ## A mutation with a variable -/

/-- A root field with an alias and two arguments. -/
def savedFile : RootField :=
  ⟨.mutation, "putFile", some "saved", [("count", .int (-5)), ("path", .str "/a\n")]⟩

/-- A writing of it with the arguments the other way round, one of them as a variable. -/
def savedFileTokens : List Token :=
  [.name "mutation", .mark '\x7b', .name "saved", .mark ':', .name "putFile", .mark '(',
    .name "path", .mark ':', .string ['"', '/', 'a', '\\', 'n', '"'], .name "count", .mark ':',
    .mark '$', .name "n", .mark ')', .mark '\x7b', .name "name", .mark '\x7d', .mark '\x7d']

theorem quoted_path : Quoted ['"', '/', 'a', '\\', 'n', '"'] "/a\n" :=
  .line (.raw (by decide) (.raw (by decide) (.escape (by decide) .nil)))

theorem savedFileTokens_fit : ∀ t ∈ savedFileTokens, t.Fits := by
  simp only [savedFileTokens, List.forall_mem_cons, Token.Fits]
  refine ⟨by decide, by decide, by decide, by decide, by decide, by decide, by decide, by decide,
    ⟨_, quoted_path⟩, by decide, by decide, by decide, by decide, by decide, by decide, by decide,
    by decide, by decide, by simp⟩

theorem savedFileTokens_write :
    Writes [("n", .int (-5))] savedFile savedFileTokens := by
  have hcount : Written [("n", .int (-5))] maxDepth (.int (-5)) [.mark '$', .name "n"] :=
    Value.ref rfl
  have hpath : Written [("n", .int (-5))] maxDepth (.str "/a\n")
      [.string ['"', '/', 'a', '\\', 'n', '"']] := Value.string quoted_path
  have hvalues : savedFile.arguments =
      Members.ofList [("path", .str "/a\n"), ("count", .int (-5))] := rfl
  have hargs := ArgumentList.some (.cons (.mk (n := "path") hpath)
    (.cons (.mk (n := "count") hcount) .nil))
  rw [← hvalues] at hargs
  have hselection : Bracketed .selection _ :=
    .some (.token (t := .name "name") (by decide) (by decide) .nil)
  have hhead : Opening [("n", .int (-5))] .mutation [.name "mutation"] :=
    .long (n := none) .none .nil
  exact .mk hhead hargs .nil hselection .nil

theorem parse_savedFile :
    Writes [("n", .int (-5))] savedFile savedFileTokens ∧
      Laid savedFileTokens (String.ofList (spaced savedFileTokens)).toList ∧
        parse (String.ofList (spaced savedFileTokens)) [("n", .int (-5))] = .ok savedFile := by
  have hl : Laid savedFileTokens (String.ofList (spaced savedFileTokens)).toList := by
    rw [String.toList_ofList]
    exact laid_spaced savedFileTokens_fit
  exact ⟨savedFileTokens_write, hl, parse_written savedFileTokens_write hl⟩

end Intranet.Graphql
