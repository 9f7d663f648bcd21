import Intranet.Proofs.Graphql.Prefixes

/-!
# Comments in a document

Between tokens a comment counts as little as the line break after it. In a skipped group it does
not: groups are passed over character by character, so a bracket or a quote in a comment counts as
one of the document.

Main results:

* `passing_ending`: a skipped group can always be completed to a whole document;
* `separated`: no two places in skipped groups accept the same continuations;
* `comment_ignored_iff`: a comment outside strings can be left out, whatever follows it, exactly
  when it stands outside skipped groups or leaves the reader where it was;
* `comment_closes_selection`: a brace in a comment that makes a difference.
-/

namespace Intranet.Graphql

/-- The text ends inside a string, as the reader sees it. -/
def InString (cs : List Char) : Prop := document cs = .error (.malformed .openString)

/-- The text ends inside a skipped group in which so many more brackets are open. -/
def InGroup (cs : List Char) (g : Group) (depth : Nat) : Prop :=
  document cs = .error (.malformed (.openGroup g depth))

/-- The reason why a document is not read. -/
def refusal? (x : Except Problem Selection) : Option Problem :=
  match x with
  | .error e => some e
  | .ok _ => none

theorem eq_error_of_refusal? {x : Except Problem Selection} {e : Problem} :
    x = .error e ↔ refusal? x = some e := by
  cases x <;> simp [refusal?]

instance (cs : List Char) : Decidable (InString cs) :=
  decidable_of_iff _ eq_error_of_refusal?.symm

instance (cs : List Char) (g : Group) (depth : Nat) : Decidable (InGroup cs g depth) :=
  decidable_of_iff _ eq_error_of_refusal?.symm

/-- The answer of the parser as clients see it: with the code and the message of an error. -/
def reported (x : Except Problem RootField) : Except (String × String) RootField :=
  x.mapError fun e => (e.code, e.message)

/-! ## Completing a skipped group -/

/-- What can stand last in a document whose skipped group waits for one closing character. The
finales tell the groups of one bracket apart. -/
def finale : Group → List Char
  | .header => [')', '\x7b', 'f', '\x7d']
  | .selection => ['\x7d', '\x7d']
  | .laterHeader => [')', '\x7b', '\x7d']
  | .laterSelection => ['x', '\x7d']

/-- A text that completes a document from inside a skipped group. -/
def ending (g : Group) (depth : Nat) : List Char := List.replicate depth g.closing ++ finale g

/-- Some document is read from a place in a skipped group on. -/
def Accepts (g : Group) (depth : Nat) (s : Selection) (cs : List Char) : Prop :=
  ∃ r, passing g depth s cs = .ok r

theorem quote_not_mem_ending (g : Group) (depth : Nat) : '"' ∉ ending g depth := by
  unfold ending
  rw [List.mem_append, List.mem_replicate]
  rintro (⟨-, h⟩ | h)
  · exact g.closing_ne_quote h.symm
  · revert h
    cases g <;> decide

theorem passing_line (g : Group) (depth : Nat) (s : Selection) (cs : List Char) :
    passing g depth s ('\n' :: cs) = passing g depth s cs := by
  unfold passing
  rw [skipGroup_other] <;> cases g <;> decide

theorem passing_closings (g : Group) (n depth : Nat) (s : Selection) (cs : List Char) :
    passing g (depth + n) s (List.replicate n g.closing ++ cs) = passing g depth s cs := by
  induction n with
  | zero => rfl
  | succ n ih =>
    rw [List.replicate_succ, List.cons_append, ← ih]
    unfold passing
    rw [← Nat.add_assoc, skipGroup_close]

theorem passing_end (g : Group) (s : Selection) (cs : List Char) :
    passing g 0 s (g.closing :: cs) = resume g s cs := by
  unfold passing
  rw [skipGroup_end]
  rfl

theorem resume_later_nil (s : Selection) : resume .laterSelection s [] = .ok s := by
  show proceed (skipDefinitions []) _ = _
  rw [skipDefinitions_nil rfl]
  rfl

theorem finish_brace (s : Selection) : finish s ['\x7d'] = .ok s := by
  rw [finish_eq]
  exact resume_later_nil s

/-- The shortest operation. -/
theorem rootField_shortest (op : Operation) :
    rootField op ['\x7b', 'f', '\x7d'] = .ok ⟨op, "f", none, []⟩ := by
  have hname : fieldName ['f', '\x7d'] = .ok ((none, "f"), ['\x7d']) := by
    rw [fieldName_eq]
    rfl
  rw [rootField_eq, expect_of_skipIgnored rfl, if_pos rfl, proceed_ok, if_neg (by decide)]
  rw [show skipIgnored ['f', '\x7d'] = ['f', '\x7d'] from rfl, hname]
  show proceed (skipDirectives ['\x7d']) _ = _
  rw [skipDirectives_of_ne rfl (by decide)]
  exact finish_brace _

theorem passing_finale (g : Group) (s : Selection) : Accepts g 0 s (finale g) := by
  cases g with
  | header =>
    refine ⟨⟨s.operation, "f", none, []⟩, (passing_end .header s ['\x7b', 'f', '\x7d']).trans ?_⟩
    show proceed (skipDirectives ['\x7b', 'f', '\x7d']) (rootField s.operation) = _
    rw [skipDirectives_of_ne rfl (by decide), proceed_ok, rootField_shortest]
  | selection =>
    exact ⟨s, (passing_end .selection s ['\x7d']).trans (finish_brace s)⟩
  | laterHeader =>
    refine ⟨s, (passing_end .laterHeader s ['\x7b', '\x7d']).trans ?_⟩
    show proceed (skipHeader ['\x7b', '\x7d']) _ = _
    rw [skipHeader_cons rfl, if_pos rfl]
    show passing .laterSelection 0 s ['\x7d'] = _
    exact (passing_end .laterSelection s []).trans (resume_later_nil s)
  | laterSelection =>
    refine ⟨s, ?_⟩
    show proceed (skipGroup .laterSelection 0 ['x', '\x7d']) _ = _
    rw [skipGroup_other (by decide) (by decide) (by decide)]
    exact (passing_end .laterSelection s []).trans (resume_later_nil s)

/-- A skipped group can be completed to a whole document. -/
theorem passing_ending (g : Group) (depth : Nat) (s : Selection) :
    Accepts g depth s (ending g depth) := by
  obtain ⟨r, hr⟩ := passing_finale g s
  refine ⟨r, ?_⟩
  rw [← hr, ← passing_closings g depth 0 s (finale g), Nat.zero_add]
  rfl

/-! ## Counting brackets -/

/-- Without quotes, a group ends only at its own closing characters. -/
theorem count_of_skipGroup {g : Group} {depth : Nat} {cs rest : List Char} (hq : '"' ∉ cs)
    (h : skipGroup g depth cs = .ok rest) :
    rest.count g.closing + depth + 1 ≤ cs.count g.closing := by
  induction cs generalizing depth with
  | nil =>
    rw [skipGroup_nil] at h
    cases h
  | cons c cs ih =>
    have hc : c ≠ '"' := fun hc => hq (hc ▸ List.mem_cons_self)
    have hq' : '"' ∉ cs := fun hc => hq (List.mem_cons_of_mem c hc)
    by_cases ho : c = g.opening
    · subst ho
      rw [skipGroup_open] at h
      have hle := ih hq' h
      rw [List.count_cons_of_ne g.closing_ne_opening.symm]
      omega
    by_cases he : c = g.closing
    · subst he
      rw [List.count_cons_self]
      cases depth with
      | zero =>
        rw [skipGroup_end] at h
        cases h
        omega
      | succ depth =>
        rw [skipGroup_close] at h
        have hle := ih hq' h
        omega
    · rw [skipGroup_other hc ho he] at h
      rw [List.count_cons_of_ne he]
      exact ih hq' h

theorem mem_of_mem_skipFrom {open_ : Bool} {cs : List Char} {c : Char}
    (h : c ∈ skipFrom open_ cs) : c ∈ cs := by
  induction cs generalizing open_ with
  | nil => simp [skipFrom] at h
  | cons d cs ih =>
    cases open_ with
    | true =>
      simp only [skipFrom] at h
      split at h
      · exact List.mem_cons_of_mem d (ih h)
      · exact List.mem_cons_of_mem d (ih h)
    | false =>
      simp only [skipFrom] at h
      split at h
      · exact List.mem_cons_of_mem d (ih h)
      · split at h
        · exact List.mem_cons_of_mem d (ih h)
        · exact h

/-- An operation does not end without a brace. -/
theorem mem_of_finish {s r : Selection} {cs : List Char} (h : finish s cs = .ok r) :
    '\x7d' ∈ cs := by
  rw [finish_eq] at h
  split at h
  · cases h
  · cases hs : skipIgnored cs with
    | nil =>
      rw [← expect_skipIgnored, hs] at h
      cases h
    | cons c rest =>
      rw [expect_of_skipIgnored hs] at h
      by_cases hc : c = '\x7d'
      · subst hc
        have hmem : '\x7d' ∈ skipIgnored cs := by
          rw [hs]
          exact List.mem_cons_self
        exact mem_of_mem_skipFrom hmem
      · rw [if_neg hc] at h
        cases h

/-- A continuation that is accepted has as many closing characters as the shortest one. -/
theorem count_of_accepts {g : Group} {depth : Nat} {s : Selection} {cs : List Char}
    (hq : '"' ∉ cs) (h : Accepts g depth s cs) :
    depth + (finale g).count g.closing ≤ cs.count g.closing := by
  obtain ⟨r, hr⟩ := h
  unfold passing at hr
  cases hg : skipGroup g depth cs with
  | error e =>
    rw [hg] at hr
    cases hr
  | ok rest =>
    rw [hg, proceed_ok] at hr
    have hle := count_of_skipGroup hq hg
    cases g with
    | header | laterHeader | laterSelection =>
      simp only [finale, Group.closing] at hle ⊢
      simp
      omega
    | selection =>
      have hmem : 0 < rest.count '\x7d' := List.count_pos_iff.mpr (mem_of_finish hr)
      simp only [finale, Group.closing] at hle ⊢
      simp
      omega

/-! ## Telling places apart -/

/-- Some continuation is read from the first place on and not from the second. -/
def Separates (g : Group) (depth : Nat) (g' : Group) (depth' : Nat) : Prop :=
  ∃ b, (∀ s, Accepts g depth s b) ∧ ∀ s, ¬Accepts g' depth' s b

theorem separates_of_closing_ne {g g' : Group} (h : g.closing ≠ g'.closing)
    (depth depth' : Nat) : Separates g depth g' depth' := by
  have ho : g'.opening ≠ g.opening := by
    revert h
    cases g <;> cases g' <;> decide
  have hc : g'.opening ≠ g.closing := by
    revert h
    cases g <;> cases g' <;> decide
  have hskip : ∀ n cs, skipGroup g depth (List.replicate n g'.opening ++ cs) =
      skipGroup g depth cs := by
    intro n cs
    induction n with
    | zero => rfl
    | succ n ih =>
      rw [List.replicate_succ, List.cons_append, skipGroup_other g'.opening_ne_quote ho hc, ih]
  have hopen : ∀ n d cs, skipGroup g' d (List.replicate n g'.opening ++ cs) =
      skipGroup g' (d + n) cs := by
    intro n
    induction n with
    | zero => intro d cs; rfl
    | succ n ih =>
      intro d cs
      rw [List.replicate_succ, List.cons_append, skipGroup_open, ih, Nat.add_right_comm,
        Nat.add_assoc]
  refine ⟨List.replicate ((ending g depth).count g'.closing) g'.opening ++ ending g depth,
    fun s => ?_, fun s hs => ?_⟩
  · obtain ⟨r, hr⟩ := passing_ending g depth s
    refine ⟨r, ?_⟩
    unfold passing at hr ⊢
    rw [hskip, hr]
  · obtain ⟨r, hr⟩ := hs
    have hacc : Accepts g' (depth' + (ending g depth).count g'.closing) s (ending g depth) := by
      refine ⟨r, ?_⟩
      unfold passing at hr ⊢
      rw [← hopen, hr]
    have := count_of_accepts (quote_not_mem_ending g depth) hacc
    have : 0 < (finale g').count g'.closing := by cases g' <;> decide
    omega

/-- An ending does not complete a deeper place. -/
theorem not_accepts_ending {g : Group} {depth depth' : Nat} (h : depth < depth')
    (s : Selection) : ¬Accepts g depth' s (ending g depth) := by
  intro hs
  have hle := count_of_accepts (quote_not_mem_ending g depth) hs
  have hcount : (ending g depth).count g.closing = depth + (finale g).count g.closing := by
    unfold ending
    rw [List.count_append, List.count_replicate_self]
  omega

theorem separates_of_lt (g : Group) {depth depth' : Nat} (h : depth < depth') :
    Separates g depth g depth' :=
  ⟨ending g depth, passing_ending g depth, not_accepts_ending h⟩

theorem accepts_close {g : Group} {depth : Nat} {s : Selection} {cs : List Char}
    (h : Accepts g (depth + 1) s (g.closing :: cs)) : Accepts g depth s cs := by
  obtain ⟨r, hr⟩ := h
  refine ⟨r, ?_⟩
  unfold passing at hr ⊢
  rw [← hr, skipGroup_close]

theorem accepts_end {g : Group} {s : Selection} {cs : List Char}
    (h : Accepts g 0 s (g.closing :: cs)) : ∃ r, resume g s cs = .ok r := by
  obtain ⟨r, hr⟩ := h
  rw [passing_end] at hr
  exact ⟨r, hr⟩

/-- After its header an operation opens. -/
theorem header_needs_brace {s : Selection} {c : Char} {rest : List Char}
    (hi : skipIgnored (c :: rest) = c :: rest) (ha : c ≠ '@') (hb : c ≠ '\x7b') :
    ¬∃ r, resume .header s (c :: rest) = .ok r := by
  rintro ⟨r, hr⟩
  have h : proceed (skipDirectives (c :: rest)) (rootField s.operation) = .ok r := hr
  rw [skipDirectives_of_ne hi ha, proceed_ok, rootField_eq, expect_of_skipIgnored hi,
    if_neg hb] at h
  cases h

/-- An operation needs a field. -/
theorem header_rejects (n depth : Nat) (s : Selection) :
    ¬Accepts .header depth s (List.replicate n ')' ++ finale .laterHeader) := by
  intro h
  induction n generalizing depth with
  | zero =>
    cases depth with
    | zero =>
      obtain ⟨r, hr⟩ := accepts_end (g := .header) h
      have hr : proceed (skipDirectives ['\x7b', '\x7d']) (rootField s.operation) = .ok r := hr
      rw [skipDirectives_of_ne rfl (by decide), proceed_ok, rootField_eq,
        expect_of_skipIgnored rfl, if_pos rfl, proceed_ok, if_neg (by decide), fieldName_eq] at hr
      cases hr
    | succ depth =>
      have hle := count_of_accepts (by decide) (accepts_close (g := .header) h)
      have : (finale .header).count Group.header.closing = 1 := by decide
      have : List.count Group.header.closing ['\x7b', '\x7d'] = 0 := by decide
      omega
  | succ n ih =>
    rw [List.replicate_succ, List.cons_append] at h
    cases depth with
    | zero =>
      have hr := accepts_end (g := .header) h
      cases n with
      | zero => exact header_needs_brace rfl (by decide) (by decide) hr
      | succ n => exact header_needs_brace rfl (by decide) (by decide) hr
    | succ depth => exact ih depth (accepts_close (g := .header) h)

/-- A name after the selection of the root field is a second field, or no definition. -/
theorem selection_rejects (n depth : Nat) (s : Selection) :
    ¬Accepts .selection depth s (List.replicate n '\x7d' ++ finale .laterSelection) := by
  intro h
  induction n generalizing depth with
  | zero =>
    have hle := count_of_accepts (by decide) h
    have : (finale .selection).count Group.selection.closing = 2 := by decide
    have : (List.replicate 0 '\x7d' ++ finale .laterSelection).count Group.selection.closing =
        1 := by
      decide
    omega
  | succ n ih =>
    rw [List.replicate_succ, List.cons_append] at h
    cases depth with
    | zero =>
      obtain ⟨r, hr⟩ := accepts_end (g := .selection) h
      have hr : finish s (List.replicate n '\x7d' ++ finale .laterSelection) = .ok r := hr
      rw [finish_eq] at hr
      cases n with
      | zero => cases hr
      | succ n =>
        rw [List.replicate_succ, List.cons_append] at hr
        have hr : proceed (skipDefinitions (List.replicate n '\x7d' ++ ['x', '\x7d']))
          (fun _ => .ok s) = .ok r := hr
        cases n with
        | zero =>
          have hi : skipIgnored (List.replicate 0 '\x7d' ++ ['x', '\x7d']) = ['x', '\x7d'] := rfl
          rw [skipDefinitions_cons hi, if_neg (by decide), if_pos (by decide)] at hr
          cases hr
        | succ n =>
          rw [skipDefinitions_cons (c := '\x7d') rfl, if_neg (by decide), if_neg (by decide)] at hr
          cases hr
    | succ depth => exact ih depth (accepts_close (g := .selection) h)

theorem separates_laterHeader (depth depth' : Nat) :
    Separates .laterHeader depth .header depth' :=
  ⟨ending .laterHeader depth, passing_ending _ _, header_rejects depth depth'⟩

theorem separates_laterSelection (depth depth' : Nat) :
    Separates .laterSelection depth .selection depth' :=
  ⟨ending .laterSelection depth, passing_ending _ _, selection_rejects depth depth'⟩

/-- Of two places in skipped groups, one accepts what the other does not. -/
theorem separated {g g' : Group} {depth depth' : Nat} (h : ¬(g = g' ∧ depth = depth')) :
    Separates g depth g' depth' ∨ Separates g' depth' g depth := by
  by_cases hc : g.closing = g'.closing
  · by_cases hg : g = g'
    · subst hg
      have hd : depth ≠ depth' := fun hd => h ⟨rfl, hd⟩
      rcases Nat.lt_or_gt_of_ne hd with hd | hd
      · exact Or.inl (separates_of_lt g hd)
      · exact Or.inr (separates_of_lt g hd)
    · cases g <;> cases g' <;> simp [Group.closing] at hc hg
      · exact Or.inr (separates_laterHeader depth' depth)
      · exact Or.inr (separates_laterSelection depth' depth)
      · exact Or.inl (separates_laterHeader depth depth')
      · exact Or.inl (separates_laterSelection depth depth')
  · exact Or.inl (separates_of_closing_ne hc depth depth')

/-! ## What is remembered in a skipped group -/

theorem proceed_eq_ok {β : Type} {x : Except Malformed β} {k : β → Except Problem Selection}
    {r : Selection} (h : proceed x k = .ok r) : ∃ b, x = .ok b ∧ k b = .ok r := by
  cases x with
  | error e => cases h
  | ok b => exact ⟨b, rfl, h⟩

theorem eq_of_finish {s r : Selection} {cs : List Char} (h : finish s cs = .ok r) : r = s := by
  rw [finish_eq] at h
  split at h
  · cases h
  · obtain ⟨rest, -, h⟩ := proceed_eq_ok h
    obtain ⟨u, -, h⟩ := proceed_eq_ok h
    cases h
    rfl

theorem operation_of_rootField {op : Operation} {r : Selection} {cs : List Char}
    (h : rootField op cs = .ok r) : r.operation = op := by
  rw [rootField_eq] at h
  obtain ⟨rest, -, h⟩ := proceed_eq_ok h
  split at h
  · cases h
  · obtain ⟨n, -, h⟩ := proceed_eq_ok h
    obtain ⟨args, -, h⟩ := proceed_eq_ok h
    obtain ⟨cs, -, h⟩ := proceed_eq_ok h
    obtain ⟨cs, -, h⟩ := proceed_eq_ok h
    rw [eq_of_finish h]

/-- The result tells what was remembered. -/
theorem resume_eq_of_ok {g : Group} {s r : Selection} {cs : List Char}
    (h : resume g s cs = .ok r) : resume g r = resume g s := by
  cases g with
  | header =>
    obtain ⟨rest, -, h⟩ := proceed_eq_ok h
    funext cs
    unfold resume
    dsimp only
    rw [operation_of_rootField h]
  | selection => rw [eq_of_finish h]
  | laterHeader =>
    obtain ⟨rest, -, h⟩ := proceed_eq_ok h
    obtain ⟨rest, -, h⟩ := proceed_eq_ok h
    obtain ⟨u, -, h⟩ := proceed_eq_ok h
    cases h
    rfl
  | laterSelection =>
    obtain ⟨u, -, h⟩ := proceed_eq_ok h
    cases h
    rfl

theorem resume_eq_of_passing {g : Group} {depth : Nat} {s r : Selection} {cs : List Char}
    (h : passing g depth s cs = .ok r) : resume g r = resume g s := by
  obtain ⟨rest, -, h⟩ := proceed_eq_ok h
  exact resume_eq_of_ok h

/-- A document that ends in a skipped group is read on from there. -/
theorem InGroup.next {a : List Char} {g : Group} {depth : Nat} (h : InGroup a g depth) :
    ∃ s, ∀ z, Edge z → document (a ++ z) = passing g depth s z := by
  cases document_settled a with
  | loose _ out => exact absurd h (out g depth)
  | inString isOpen =>
    unfold InGroup at h
    rw [isOpen] at h
    cases h
  | inGroup g' depth' s next =>
    have h0 := next [] Edge.nil
    unfold InGroup at h
    unfold passing at h0
    rw [List.append_nil, h, skipGroup_nil] at h0
    cases h0
    exact ⟨s, next⟩

theorem inGroup_of_next {a : List Char} {g : Group} {depth : Nat} {s : Selection}
    (h : ∀ z, Edge z → document (a ++ z) = passing g depth s z) : InGroup a g depth := by
  have h0 := h [] Edge.nil
  unfold passing at h0
  rwa [List.append_nil, skipGroup_nil] at h0

/-! ## Comments -/

section Comment

variable {a c : List Char}

/-- A comment outside skipped groups, or one that leaves the reader where it was, is like the end
of its line. -/
theorem document_comment (hc : '\n' ∉ c) (ha : ¬InString a)
    (h : ∀ g depth, InGroup a g depth → InGroup (a ++ '#' :: c) g depth) (b : List Char) :
    document (a ++ '#' :: (c ++ '\n' :: b)) = document (a ++ '\n' :: b) := by
  cases document_settled a with
  | loose same _ => exact same _ _ (Alike.comment hc b)
  | inString isOpen _ => exact absurd isOpen ha
  | inGroup g depth s next =>
    obtain ⟨s', next'⟩ := (h g depth (inGroup_of_next next)).next
    have hsplit : ∀ b, a ++ '#' :: (c ++ '\n' :: b) = (a ++ '#' :: c) ++ '\n' :: b := by
      intro b
      simp
    -- An ending is read to one selection from both places, so both remember the same.
    have hs : resume g s' = resume g s := by
      obtain ⟨r, hr⟩ := passing_ending g depth s'
      rw [← resume_eq_of_passing hr]
      have hpass : passing g depth s ('#' :: (c ++ '\n' :: ending g depth)) = .ok r := by
        rw [← next _ (Edge.comment _), hsplit, next' _ (Edge.line _), passing_line, hr]
      exact resume_eq_of_passing hpass
    rw [hsplit, next' _ (Edge.line b), next _ (Edge.line b)]
    unfold passing
    rw [hs]

/-- A comment that may be left out whatever follows it leaves the reader where it was. -/
theorem inGroup_of_comment {g : Group} {depth : Nat} (hg : InGroup a g depth)
    (h : ∀ b, (∃ r, document (a ++ '#' :: (c ++ '\n' :: b)) = .ok r) ↔
      ∃ r, document (a ++ '\n' :: b) = .ok r) : InGroup (a ++ '#' :: c) g depth := by
  obtain ⟨s, next⟩ := hg.next
  have hacc : ∀ b, Accepts g depth s b ↔ ∃ r, document ((a ++ '#' :: c) ++ '\n' :: b) = .ok r := by
    intro b
    rw [List.append_assoc, List.cons_append, h b, next _ (Edge.line b), passing_line]
    rfl
  have hend := (hacc _).mp (passing_ending g depth s)
  cases document_settled (a ++ '#' :: c) with
  | loose same _ =>
    -- Behind a token, an opening bracket in a comment would not count; in the group it does.
    exfalso
    have ho : '\n' ∉ [g.opening] := by cases g <;> decide
    rw [← same _ _ (Alike.line ho (ending g depth)), ← hacc] at hend
    obtain ⟨r, hr⟩ := hend
    refine not_accepts_ending (g := g) (Nat.lt_succ_self depth) s ⟨r, ?_⟩
    unfold passing at hr ⊢
    rw [← hr, skipGroup_other (by decide) (by cases g <;> decide) (by cases g <;> decide),
      List.singleton_append, skipGroup_open,
      skipGroup_other (by decide) (by cases g <;> decide) (by cases g <;> decide)]
  | inString _ stuck =>
    obtain ⟨e, he⟩ := stuck _ (quote_not_mem_ending g depth)
    obtain ⟨r, hr⟩ := hend
    rw [he] at hr
    cases hr
  | inGroup g' depth' s' next' =>
    have hacc' : ∀ b, Accepts g depth s b ↔ Accepts g' depth' s' b := by
      intro b
      rw [hacc, next' _ (Edge.line b), passing_line]
      rfl
    by_cases hsame : g = g' ∧ depth = depth'
    · obtain ⟨rfl, rfl⟩ := hsame
      exact inGroup_of_next next'
    · rcases separated hsame with ⟨b, hyes, hno⟩ | ⟨b, hyes, hno⟩
      · exact absurd ((hacc' b).mp (hyes s)) (hno s')
      · exact absurd ((hacc' b).mpr (hyes s')) (hno s)

/-- What clients see tells whether the document was read. -/
theorem ok_iff_of_reported {text text' : String} {given : Members}
    (h : reported (parse text given) = reported (parse text' given)) :
    (∃ r, document text.toList = .ok r) ↔ ∃ r, document text'.toList = .ok r := by
  have hok : ∀ t : String, (∃ r, document t.toList = .ok r) ↔
      ∃ f, reported (parse t given) = .ok f := by
    intro t
    unfold parse
    cases document t.toList with
    | error e =>
      constructor
      · rintro ⟨r, hr⟩
        cases hr
      · rintro ⟨f, hf⟩
        cases hf
    | ok s => exact ⟨fun _ => ⟨s.resolve given, rfl⟩, fun _ => ⟨s, rfl⟩⟩
  rw [hok, hok, h]

end Comment

/-- Outside strings, as the reader sees them, a comment is like the end of its line for every
continuation and all variables if and only if it leaves the reader where it was whenever that is in
a skipped group. It may stand in another comment. -/
theorem comment_ignored_iff (a c : String) (hc : '\n' ∉ c.toList) (ha : ¬InString a.toList) :
    (∀ (b : String) (given : Members), reported (parse (a ++ "#" ++ c ++ "\n" ++ b) given) =
        reported (parse (a ++ "\n" ++ b) given)) ↔
      ∀ g depth, InGroup a.toList g depth → InGroup (a ++ "#" ++ c).toList g depth := by
  have hwith : ∀ b : String, (a ++ "#" ++ c ++ "\n" ++ b).toList =
      a.toList ++ '#' :: (c.toList ++ '\n' :: b.toList) := by
    intro b
    simp
  have hwithout : ∀ b : String, (a ++ "\n" ++ b).toList = a.toList ++ '\n' :: b.toList := by
    intro b
    simp
  have hcut : (a ++ "#" ++ c).toList = a.toList ++ '#' :: c.toList := by simp
  rw [hcut]
  constructor
  · intro h g depth hg
    refine inGroup_of_comment hg fun b => ?_
    have hb := ok_iff_of_reported (h (String.ofList b) [])
    rwa [hwith, hwithout, String.toList_ofList] at hb
  · intro h b given
    unfold parse
    rw [hwith, hwithout, document_comment hc ha h]

theorem InGroup.unique {cs : List Char} {g g' : Group} {depth depth' : Nat}
    (h : InGroup cs g depth) (h' : InGroup cs g' depth') : g = g' ∧ depth = depth' := by
  unfold InGroup at h h'
  rw [h] at h'
  cases h'
  exact ⟨rfl, rfl⟩

/-- A comment without brackets and quotes in the selection below the root field. -/
theorem comment_ignored_in_selection :
    '\n' ∉ " as shown".toList ∧ ¬InString "\x7b me \x7b login ".toList ∧
      ∀ (b : String) (given : Members),
        reported (parse ("\x7b me \x7b login " ++ "#" ++ " as shown" ++ "\n" ++ b) given) =
          reported (parse ("\x7b me \x7b login " ++ "\n" ++ b) given) := by
  have hc : '\n' ∉ " as shown".toList := by decide
  have ha : ¬InString "\x7b me \x7b login ".toList := by decide +kernel
  refine ⟨hc, ha, (comment_ignored_iff _ _ hc ha).mpr fun g depth hg => ?_⟩
  have hin : InGroup "\x7b me \x7b login ".toList .selection 0 := by decide +kernel
  obtain ⟨rfl, rfl⟩ := hg.unique hin
  decide +kernel

/-- A closing brace in a comment ends the selection below the root field. The comment is the first
one of the document, so that it stands outside any other. That it stands outside strings is said as
the reader sees it: the text before it does not end inside what the reader takes for a string. -/
theorem comment_closes_selection :
    ¬∀ (a c b : String) (given : Members), '\n' ∉ c.toList → '#' ∉ a.toList → ¬InString a.toList →
      reported (parse (a ++ "#" ++ c ++ "\n" ++ b) given) =
        reported (parse (a ++ "\n" ++ b) given) := by
  intro h
  have heq := h "\x7b me \x7b login " " \x7d" " \x7d \x7d" [] (by decide) (by decide)
    (by decide +kernel)
  have hwith : (reported (parse ("\x7b me \x7b login " ++ "#" ++ " \x7d" ++ "\n" ++
      " \x7d \x7d") [])).isOk = false := by
    decide +kernel
  have hwithout : (reported (parse ("\x7b me \x7b login " ++ "\n" ++ " \x7d \x7d") [])).isOk =
      true := by
    decide +kernel
  rw [heq, hwithout] at hwith
  cases hwith

end Intranet.Graphql
