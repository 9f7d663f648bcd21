import Intranet.Proofs.Graphql.Cuts

/-!
# Documents read in two pieces

Every reader is settled when what comes after it is: values by the nesting that is left, loops by
the length of the text, the parts of a document from its end to its start.

Main results:

* `Settles.many`: a bracketed sequence of items is settled if each item is;
* `passing_settled`: a skipped group is, if what comes after it is;
* `document_settled`: a document is, wherever it is cut.
-/

namespace Intranet.Graphql

/-! ## Values -/

/-- A name, a colon and what stands under the name. -/
theorem Settles.pair {α : Type} {p : Taker α} (hp : Settles p.run) : Settles (pair p).run where
  skips cs := by
    change pairRun p (skipIgnored cs) = pairRun p cs
    unfold pairRun
    rw [name_skipIgnored]
  wants := ⟨.unexpectedEnd, rfl, by simp⟩
  settles k cs hk := by
    change Settled (fun cs => proceed (pairRun p cs) fun r => k r.1 r.2) cs
    simp only [proceed_pairRun]
    refine name_settles.settles (fun key rest => proceed (expect ':' rest) fun rest =>
      proceed (p.run rest) fun s => k (key, s.1) s.2) cs fun key q hq => ?_
    refine expect_settled ':' fun q' hq' => ?_
    refine hp.settles (fun a => k (key, a)) q' fun a q'' hq'' => hk (key, a) q'' ?_
    omega

theorem manyOnto_settled {α : Type} {p : Taker α} (hp : Settles p.run) (close : Char)
    {k : List α → List Char → Except Problem Selection} (n : Nat) (done : List α)
    (cs : List Char) (hn : cs.length ≤ n)
    (hk : ∀ as q, q.length < cs.length → Settled (k as) q) :
    Settled (fun cs => proceed (p.manyOnto close done cs) fun r => k r.1 r.2) cs := by
  induction n generalizing done cs with
  | zero =>
    cases cs with
    | nil =>
      obtain ⟨e, he, hne⟩ := hp.wants
      refine Settled.blank (fun cs => ?_) rfl ?_
      · rw [proceed_manyOnto, proceed_manyOnto, eat?_skipIgnored, hp.skips]
      · rw [proceed_manyOnto, eat?_nil, he]
        simpa using hne
    | cons c cs => simp at hn
  | succ n ih =>
    refine eat_settled close (G := k done.reverse)
      (H := fun cs => proceed (p.run cs) fun r =>
        proceed (p.manyOnto close (r.1 :: done) r.2) fun r => k r.1 r.2)
      (fun cs => ?_) ?_ (hk done.reverse) fun q hq => ?_
    · rw [proceed_manyOnto, hp.skips]
    · obtain ⟨e, he, hne⟩ := hp.wants
      rw [he]
      simpa using hne
    · refine hp.settles (fun a rest => proceed (p.manyOnto close (a :: done) rest) fun r =>
        k r.1 r.2) q fun a q' hq' => ?_
      refine ih (a :: done) q' (by omega) fun as q'' hq'' => hk as q'' (by omega)

/-- Items up to a closing character. -/
theorem Settles.many {α : Type} {p : Taker α} (hp : Settles p.run) (close : Char) :
    Settles (p.many close) where
  skips cs := by
    unfold Taker.many
    rw [manyOnto_eq, manyOnto_eq p close [] cs, eat?_skipIgnored, hp.skips]
  wants := by
    obtain ⟨e, he, hne⟩ := hp.wants
    refine ⟨e, ?_, hne⟩
    unfold Taker.many
    rw [manyOnto_eq, eat?_nil, he]
    rfl
  settles k cs hk := manyOnto_settled hp close cs.length [] cs (Nat.le_refl _) hk

/-- Values are settled when the values inside them are. -/
theorem valueRun_settles {inner : Option (Taker Literal)}
    (hi : ∀ p, inner = some p → Settles p.run) : Settles (valueRun inner) where
  skips cs := valueRun_skipIgnored inner cs
  wants := ⟨.unexpectedEnd, valueRun_nil rfl, by simp⟩
  settles k p hk := by
    cases hs : skipIgnored p with
    | nil =>
      refine Settled.blank (fun cs => by rw [valueRun_skipIgnored]) hs ?_
      rw [valueRun_nil rfl]
      simp
    | cons c rest =>
      have hlt := length_of_skipIgnored hs
      have hz := skipIgnored_append hs
      by_cases hl : c = '['
      · subst hl
        cases inner with
        | none =>
          refine Settled.stop (r := .error (.malformed .tooDeep)) (fun z _ => ?_) (by simp)
          rw [valueRun_deep (Or.inl rfl) (hz z)]
          rfl
        | some i =>
          refine Settled.step (fun z _ => ?_)
            (((hi i rfl).many ']').settles (fun items => k (.list items)) rest
              fun items q hq => hk _ q (by omega))
          rw [valueRun_list (hz z), proceed_map]
      by_cases ho : c = '\x7b'
      · subst ho
        cases inner with
        | none =>
          refine Settled.stop (r := .error (.malformed .tooDeep)) (fun z _ => ?_) (by simp)
          rw [valueRun_deep (Or.inr rfl) (hz z)]
          rfl
        | some i =>
          refine Settled.step (fun z _ => ?_)
            (((hi i rfl).pair.many '\x7d').settles (fun fields => k (.object fields)) rest
              fun fields q hq => hk _ q (by omega))
          rw [valueRun_object (hz z), proceed_map]
      by_cases hr : c = '$'
      · subst hr
        refine Settled.step (fun z _ => ?_)
          (name_settles.settles (fun n => k (.ref n)) rest fun n q hq => hk _ q (by omega))
        rw [valueRun_ref (hz z), proceed_map]
      by_cases hq : c = '"'
      · subst hq
        refine Settled.step (fun z _ => ?_)
          (string_settled (k := fun s => k (.string s)) (p := rest)
            fun s q hq => hk _ q (by simp only [List.length_cons] at hq; omega))
        rw [valueRun_string (hz z), proceed_map]
        rfl
      by_cases hd : c = '-' ∨ Decimal.isDigit c = true
      · have hc : isNumberChar c = true := by
          unfold isNumberChar
          rcases hd with rfl | hd <;> simp [*]
        refine Settled.step (fun z _ => ?_)
          (number_settled (k := fun n => k (.ofNumber n)) (p := rest) hc
            fun n q hq => hk _ q (by simp only [List.length_cons] at hq; omega))
        rw [valueRun_number hd (hz z), proceed_map]
        rfl
      by_cases hn : isNameStart c = true
      · refine Settled.step (fun z _ => ?_)
          (name_settles.settles (fun n => k (.ofName n)) (c :: rest)
            fun n q hq => hk _ q (by simp only [List.length_cons] at hq; omega))
        rw [valueRun_name hn (hz z), proceed_map]
        rfl
      · refine Settled.stop (r := .error (.malformed (.unexpectedChar c)))
          (fun z _ => ?_) (by simp)
        rw [not_or, Bool.not_eq_true] at hd
        rw [valueRun_unexpected (by simp [hl, ho, hr, hq, hd]) hd.2 (by simpa using hn) (hz z)]
        rfl

theorem literal_settles (n : Nat) : Settles (literal n).run := by
  induction n with
  | zero =>
    show Settles (valueRun none)
    refine valueRun_settles fun p h => ?_
    cases h
  | succ n ih =>
    show Settles (valueRun (some (literal n)))
    refine valueRun_settles fun p h => ?_
    cases h
    exact ih

theorem arguments_settles : Settles arguments :=
  (literal_settles maxDepth).pair.many ')'

/-! ## Directives and skipped groups -/

/-- Directives, and what comes after them. -/
theorem skipDirectives_settled {k : List Char → Except Problem Selection} (h0 : Outside (k []))
    (hk : ∀ q, Settled k q) (n : Nat) (p : List Char) (hn : p.length ≤ n) :
    Settled (fun cs => proceed (skipDirectives cs) k) p := by
  have hend : Outside (proceed (skipDirectives []) k) := by
    rw [skipDirectives_nil]
    exact h0
  induction n generalizing p with
  | zero =>
    cases p with
    | nil => exact Settled.blank (fun cs => by rw [skipDirectives_skipIgnored]) rfl hend
    | cons c p => simp at hn
  | succ n ih =>
    refine eat_settled '@' (fun cs => proceed_skipDirectives cs k) h0 (fun q hq => ?_)
      fun q _ => hk q
    refine name_settles.settles (fun _ rest => (eat? '(' rest).elim
      (proceed (skipDirectives (skipIgnored rest)) k) fun inside =>
        proceed (arguments inside) fun s => proceed (skipDirectives s.2) k) q fun _ q₂ hq₂ => ?_
    refine eat_settled '(' (fun cs => rfl) hend (fun q₃ hq₃ => ?_) fun q₃ hq₃ => ih q₃ (by omega)
    refine arguments_settles.settles (fun _ rest => proceed (skipDirectives rest) k) q₃
      fun _ q₄ hq₄ => ih q₄ (by omega)

/-- A skipped group is settled if what comes after it is. The induction is on the length, since a
string in the group may be of any length. -/
theorem passing_settled {g : Group} {s : Selection} (n depth : Nat) (p : List Char)
    (hn : p.length ≤ n) (hk : ∀ q, q.length < p.length → Settled (resume g s) q) :
    Settled (passing g depth s) p := by
  induction n generalizing depth p with
  | zero =>
    cases p with
    | nil => exact .inGroup g depth s fun z _ => rfl
    | cons c p => simp at hn
  | succ n ih =>
    cases p with
    | nil => exact .inGroup g depth s fun z _ => rfl
    | cons c p =>
      have hp : p.length ≤ n := Nat.le_of_succ_le_succ hn
      have hk' : ∀ q, q.length ≤ p.length → Settled (resume g s) q :=
        fun q hq => hk q (Nat.lt_succ_of_le hq)
      by_cases hq : c = '"'
      · subst hq
        refine Settled.step (fun z _ => ?_)
          (string_settled (k := fun _ => passing g depth s) (p := p) fun _ q hq => ?_)
        · unfold passing
          rw [List.cons_append, skipGroup_quote, proceed_bind]
        · rw [List.length_cons] at hq
          exact ih depth q (by omega) fun q' hq' => hk' q' (by omega)
      by_cases ho : c = g.opening
      · subst ho
        refine Settled.step (fun z _ => ?_)
          (ih (depth + 1) p hp fun q hq => hk' q (Nat.le_of_lt hq))
        unfold passing
        rw [List.cons_append, skipGroup_open]
      by_cases hc : c = g.closing
      · subst hc
        cases depth with
        | zero =>
          refine Settled.step (fun z _ => ?_) (hk' p (Nat.le_refl _))
          unfold passing
          rw [List.cons_append, skipGroup_end]
          rfl
        | succ depth =>
          refine Settled.step (fun z _ => ?_)
            (ih depth p hp fun q hq => hk' q (Nat.le_of_lt hq))
          unfold passing
          rw [List.cons_append, skipGroup_close]
      · refine Settled.step (fun z _ => ?_)
          (ih depth p hp fun q hq => hk' q (Nat.le_of_lt hq))
        unfold passing
        rw [List.cons_append, skipGroup_other hq ho hc]

/-! ## Later definitions -/

/-- The header of a later definition is settled if the definitions after it are. -/
theorem laterHeader_settled {s : Selection} (n : Nat) (p : List Char) (hn : p.length ≤ n)
    (hk : ∀ q, q.length < p.length → Settled (resume .laterSelection s) q) :
    Settled (resume .laterHeader s) p := by
  have hskip : ∀ cs, resume .laterHeader s cs = resume .laterHeader s (skipIgnored cs) := by
    intro cs
    unfold resume
    dsimp only
    rw [skipHeader_skipIgnored]
  have hnil : Outside (resume .laterHeader s []) := by
    unfold resume
    dsimp only
    rw [skipHeader_nil rfl]
    simp
  induction n generalizing p with
  | zero =>
    cases p with
    | nil => exact Settled.blank hskip rfl hnil
    | cons c p => simp at hn
  | succ n ih =>
    cases hs : skipIgnored p with
    | nil => exact Settled.blank hskip hs hnil
    | cons c rest =>
      have hlt := length_of_skipIgnored hs
      have hrest : ∀ q, q.length ≤ rest.length → Settled (resume .laterHeader s) q :=
        fun q hq => ih q (by omega) fun q' hq' => hk q' (by omega)
      have hnext : ∀ z, resume .laterHeader s (p ++ z) =
          proceed (skipHeader (p ++ z)) (passing .laterSelection 0 s) := fun z => rfl
      by_cases hb : c = '\x7b'
      · refine Settled.step (fun z _ => ?_) (passing_settled rest.length 0 rest (Nat.le_refl _)
          fun q hq => hk q (by omega))
        rw [hnext, skipHeader_cons (skipIgnored_append hs z), if_pos hb]
        rfl
      by_cases hp : c = '('
      · refine Settled.step (fun z _ => ?_) (passing_settled rest.length 0 rest (Nat.le_refl _)
          fun q hq => hrest q (Nat.le_of_lt hq))
        rw [hnext, skipHeader_cons (skipIgnored_append hs z), if_neg hb, if_pos hp, proceed_bind]
        rfl
      by_cases hq : c = '"'
      · subst hq
        refine Settled.step (fun z _ => ?_)
          (string_settled (k := fun _ => resume .laterHeader s) (p := rest) fun _ q hq =>
            hrest q (Nat.le_of_lt_succ hq))
        rw [hnext, skipHeader_cons (skipIgnored_append hs z), if_neg hb, if_neg hp, if_pos rfl,
          proceed_bind]
        rfl
      by_cases hc : isHeaderChar c
      · refine Settled.step (fun z _ => ?_) (hrest rest (Nat.le_refl _))
        rw [hnext, skipHeader_cons (skipIgnored_append hs z), if_neg hb, if_neg hp, if_neg hq,
          if_pos hc]
        rfl
      · refine Settled.stop (r := .error (.malformed (.unexpectedChar c)))
          (fun z _ => ?_) (by simp)
        rw [hnext, skipHeader_cons (skipIgnored_append hs z), if_neg hb, if_neg hp, if_neg hq,
          if_neg hc]
        rfl

/-- Later definitions are settled. -/
theorem laterSelection_settled {s : Selection} (n : Nat) (p : List Char) (hn : p.length ≤ n) :
    Settled (resume .laterSelection s) p := by
  have hskip : ∀ cs, resume .laterSelection s cs = resume .laterSelection s (skipIgnored cs) := by
    intro cs
    unfold resume
    dsimp only
    rw [skipDefinitions_skipIgnored]
  have hnil : Outside (resume .laterSelection s []) := by
    unfold resume
    dsimp only
    rw [skipDefinitions_nil rfl]
    simp
  induction n generalizing p with
  | zero =>
    cases p with
    | nil => exact Settled.blank hskip rfl hnil
    | cons c p => simp at hn
  | succ n ih =>
    cases hs : skipIgnored p with
    | nil => exact Settled.blank hskip hs hnil
    | cons c rest =>
      have hlt := length_of_skipIgnored hs
      have hnext : ∀ z, resume .laterSelection s (p ++ z) =
          proceed (skipDefinitions (p ++ z)) fun _ => .ok s := fun z => rfl
      by_cases hb : c = '\x7b'
      · refine Settled.step (fun z _ => ?_) (passing_settled rest.length 0 rest (Nat.le_refl _)
          fun q hq => ih q (by omega))
        rw [hnext, skipDefinitions_cons (skipIgnored_append hs z), if_pos hb, proceed_bind]
        rfl
      by_cases hc : isNameStart c
      · have hword : ∀ (word : String) (q : List Char), q.length < (c :: rest).length →
            Settled (fun cs => if word ∈ definitionWords then resume .laterHeader s cs
              else .error (.malformed (.unexpectedName word))) q := by
          intro word q hq
          rw [List.length_cons] at hq
          by_cases hw : word ∈ definitionWords
          · simp only [if_pos hw]
            exact laterHeader_settled q.length q (Nat.le_refl _) fun q' hq' => ih q' (by omega)
          · simp only [if_neg hw]
            exact Settled.stop (fun z _ => rfl) (by simp)
        refine Settled.step (fun z _ => ?_) (name_settles.settles _ (c :: rest) hword)
        rw [hnext, skipDefinitions_cons (skipIgnored_append hs z), if_neg hb, if_pos hc,
          proceed_bind]
        congr 1
        funext r
        by_cases hw : r.1 ∈ definitionWords
        · rw [if_pos hw, if_pos hw, proceed_bind]
          unfold resume
          congr 1
          funext rest
          rw [proceed_bind]
        · rw [if_neg hw, if_neg hw]
          rfl
      · refine Settled.stop (r := .error (.malformed (.unexpectedChar c)))
          (fun z _ => ?_) (by simp)
        rw [hnext, skipDefinitions_cons (skipIgnored_append hs z), if_neg hb, if_neg hc]
        rfl

/-! ## The root field -/

theorem startsFragment_append {c : Char} {rest z : List Char} (hz : Edge z) :
    startsFragment (c :: rest ++ z) = startsFragment (c :: rest) := by
  have hdot := hz.head_ne (c := '.') (by decide) (by decide)
  match c, rest, z, hdot with
  | _, _ :: _ :: _, _, _ => simp only [List.cons_append, startsFragment_cons]
  | _, [], [], _ | _, [_], [], _ => rfl
  | _, [], d :: z, hdot =>
    have hd : d ≠ '.' := fun h => hdot (by rw [h]; rfl)
    simp [startsFragment, hd]
  | _, [_], d :: z, hdot =>
    have hd : d ≠ '.' := fun h => hdot (by rw [h]; rfl)
    simp [startsFragment, hd]

theorem startsSelection_append {c : Char} {rest z : List Char} (hz : Edge z) :
    startsSelection (c :: rest ++ z) = startsSelection (c :: rest) := by
  rw [List.cons_append, startsSelection_eq, startsSelection_eq, ← List.cons_append,
    startsFragment_append hz]

theorem outside_finish_nil (s : Selection) : Outside (finish s []) := by
  rw [finish_eq]
  simp [startsSelection]

theorem finish_settled (s : Selection) (p : List Char) : Settled (finish s) p := by
  cases hs : skipIgnored p with
  | nil =>
    refine Settled.blank (fun cs => ?_) hs (outside_finish_nil s)
    rw [finish_eq, finish_eq, skipIgnored_idem, expect_skipIgnored]
  | cons c rest =>
    by_cases hst : startsSelection (c :: rest)
    · refine Settled.stop (r := .error (.unsupported (.secondField s.name))) (fun z hz => ?_)
        (by simp)
      rw [finish_eq, skipIgnored_append hs z, ← List.cons_append, startsSelection_append hz,
        if_pos hst]
    · refine Settled.step (fun z hz => ?_) (expect_settled '\x7d' (p := p) fun q _ =>
        laterSelection_settled (s := s) q.length q (Nat.le_refl _))
      rw [finish_eq, skipIgnored_append hs z, ← List.cons_append, startsSelection_append hz,
        if_neg hst]

theorem outside_afterArguments_nil (s : Selection) : Outside (afterArguments s []) := by
  unfold afterArguments
  rw [skipDirectives_nil]
  exact outside_finish_nil s

theorem afterArguments_settled (s : Selection) (p : List Char) :
    Settled (afterArguments s) p := by
  refine skipDirectives_settled ?_ (fun q => ?_) p.length p (Nat.le_refl _)
  · exact outside_finish_nil s
  refine eat_settled '\x7b' (G := passing .selection 0 s) (H := finish s) (fun cs => ?_)
    (outside_finish_nil s)
    (fun q _ => passing_settled q.length 0 q (Nat.le_refl _) fun q' _ => finish_settled s q')
    fun q _ => finish_settled s q
  unfold skipSelection
  cases eat? '\x7b' cs <;> rfl

theorem fieldArguments_settled (mk : List (String × Literal) → Selection) (p : List Char) :
    Settled (fun cs => proceed (fieldArguments cs) fun t => afterArguments (mk t.1) t.2) p := by
  refine eat_settled '(' (G := fun cs => proceed (arguments cs) fun t =>
      afterArguments (mk t.1) t.2) (H := afterArguments (mk [])) (fun cs => ?_)
    (outside_afterArguments_nil _)
    (fun q _ => arguments_settles.settles (fun args => afterArguments (mk args)) q
      fun args q' _ => afterArguments_settled _ q') fun q _ => afterArguments_settled _ q
  unfold fieldArguments
  cases eat? '(' cs <;> rfl

theorem fieldName_settled (op : Operation) (p : List Char) :
    Settled (fun cs => proceed (fieldName cs) fun r => proceed (fieldArguments r.2) fun t =>
      afterArguments ⟨op, r.1.2, r.1.1, t.1⟩ t.2) p := by
  have hk : ∀ (n : Option String × String) (q : List Char),
      Settled (fun cs => proceed (fieldArguments cs) fun t =>
        afterArguments ⟨op, n.2, n.1, t.1⟩ t.2) q :=
    fun n q => fieldArguments_settled (fun args => ⟨op, n.2, n.1, args⟩) q
  refine Settled.step (fun z _ => proceed_fieldName _ fun n cs =>
    proceed (fieldArguments cs) fun t => afterArguments ⟨op, n.2, n.1, t.1⟩ t.2)
    (name_settles.settles (fun first cs => (eat? ':' cs).elim
      (proceed (fieldArguments (skipIgnored cs)) fun u =>
        afterArguments ⟨op, first, none, u.1⟩ u.2) fun rest =>
          proceed (name rest) fun t => proceed (fieldArguments t.2) fun u =>
            afterArguments ⟨op, t.1, some first, u.1⟩ u.2) p fun first q _ => ?_)
  refine eat_settled ':' (H := fun cs => proceed (fieldArguments cs) fun u =>
        afterArguments ⟨op, first, none, u.1⟩ u.2) (fun cs => rfl)
    (outside_afterArguments_nil _) (fun q _ => ?_) fun q _ => hk (none, first) q
  exact name_settles.settles (fun second cs => proceed (fieldArguments cs) fun u =>
        afterArguments ⟨op, second, some first, u.1⟩ u.2) q fun second q' _ =>
    hk (some first, second) q'

theorem rootField_settled (op : Operation) (p : List Char) : Settled (rootField op) p := by
  have hinside : ∀ q, Settled (fun rest =>
      if startsFragment (skipIgnored rest) then .error (.unsupported .rootFragment)
      else proceed (fieldName (skipIgnored rest)) fun r =>
        proceed (fieldArguments r.2) fun t =>
          afterArguments ⟨op, r.1.2, r.1.1, t.1⟩ t.2) q := by
    intro q
    have hskip : ∀ cs, fieldName (skipIgnored cs) = fieldName cs := fun cs => by
      rw [fieldName_eq, fieldName_eq, name_skipIgnored]
    cases hs : skipIgnored q with
    | nil =>
      refine Settled.blank (fun cs => by rw [skipIgnored_idem]) hs ?_
      simp [startsFragment, fieldName_eq, name, Except.bind]
    | cons c rest =>
      by_cases hf : startsFragment (c :: rest)
      · refine Settled.stop (r := .error (.unsupported .rootFragment)) (fun z hz => ?_) (by simp)
        rw [skipIgnored_append hs z, ← List.cons_append, startsFragment_append hz, if_pos hf]
      · refine Settled.step (fun z hz => ?_) (fieldName_settled op q)
        rw [hskip, skipIgnored_append hs z, ← List.cons_append, startsFragment_append hz,
          if_neg hf]
  refine Settled.step (fun z _ => rootField_eq op (p ++ z))
    (expect_settled '\x7b' fun q _ => hinside q)

/-! ## The operation -/

theorem skipDirectives_rootField_settled (op : Operation) (p : List Char) :
    Settled (resume .header (ahead op)) p := by
  refine skipDirectives_settled ?_ (rootField_settled op) p.length p (Nat.le_refl _)
  rw [rootField_eq]
  simp

theorem outside_header_nil (op : Operation) : Outside (resume .header (ahead op) []) := by
  show Outside (proceed (skipDirectives []) (rootField op))
  rw [skipDirectives_nil, proceed_ok, rootField_eq]
  simp

theorem skipVariables_settled (op : Operation) (p : List Char) :
    Settled (fun cs => proceed (skipVariables cs) (resume .header (ahead op))) p := by
  refine eat_settled '(' (G := passing .header 0 (ahead op)) (H := resume .header (ahead op))
    (fun cs => ?_) (outside_header_nil op)
    (fun q _ => passing_settled q.length 0 q (Nat.le_refl _) fun q' _ =>
      skipDirectives_rootField_settled op q')
    fun q _ => skipDirectives_rootField_settled op q
  unfold skipVariables
  cases eat? '(' cs <;> rfl

theorem afterKeyword_settled (op : Operation) (p : List Char) : Settled (afterKeyword op) p := by
  cases hs : skipIgnored p with
  | nil =>
    refine Settled.blank (fun cs => ?_) hs ?_
    · unfold afterKeyword
      rw [skipName_skipIgnored]
    · exact outside_header_nil op
  | cons c rest =>
    by_cases hc : isNameStart c
    · refine Settled.step (fun z _ => ?_) (name_settles.settles (fun _ cs =>
        proceed (skipVariables cs) (resume .header (ahead op))) (c :: rest) fun _ q _ =>
          skipVariables_settled op q)
      unfold afterKeyword skipName
      rw [skipIgnored_append hs z]
      dsimp only
      rw [if_pos hc, proceed_map]
      rfl
    · refine Settled.step (fun z _ => ?_) (skipVariables_settled op (c :: rest))
      unfold afterKeyword skipName
      rw [skipIgnored_append hs z]
      dsimp only
      rw [if_neg hc]
      rfl

/-- A document is settled wherever it is cut. -/
theorem document_settled (p : List Char) : Settled document p := by
  cases hs : skipIgnored p with
  | nil =>
    refine Settled.blank (fun cs => ?_) hs ?_
    · rw [document_eq, document_eq (skipIgnored cs), skipIgnored_idem, name_skipIgnored]
    · rw [document_eq]
      simp [name]
  | cons c rest =>
    have hhead : ∀ z, (skipIgnored (p ++ z)).head? = some c := fun z => by
      rw [skipIgnored_append hs z]
      rfl
    by_cases hb : some c = some '\x7b'
    · refine Settled.step (fun z _ => ?_) (rootField_settled .query (c :: rest))
      rw [document_eq, hhead, if_pos hb, skipIgnored_append hs z]
      rfl
    · refine Settled.step (fun z _ => ?_) (name_settles.settles (fun word cs =>
          if word = "query" then afterKeyword .query cs
          else if word = "mutation" then afterKeyword .mutation cs
          else if word = "subscription" then .error (.unsupported .subscription)
          else .error (.malformed (.unexpectedName word))) p fun word q _ => ?_)
      · rw [document_eq, hhead, if_neg hb]
      · by_cases hq : word = "query"
        · simp only [if_pos hq]
          exact afterKeyword_settled .query q
        by_cases hm : word = "mutation"
        · simp only [if_neg hq, if_pos hm]
          exact afterKeyword_settled .mutation q
        by_cases hu : word = "subscription"
        · simp only [if_neg hq, if_neg hm, if_pos hu]
          exact Settled.stop (fun z _ => rfl) (by simp)
        · simp only [if_neg hq, if_neg hm, if_neg hu]
          exact Settled.stop (fun z _ => rfl) (by simp)

end Intranet.Graphql
