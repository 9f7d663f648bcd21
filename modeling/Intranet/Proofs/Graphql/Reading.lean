import Intranet.Graphql.Document

/-!
# What the readers of a document do

Equations of the readers, without their termination arguments. Each says what a reader does with
what is left once blanks and comments are skipped, or how it goes on with what an earlier one gave.

Main results:

* `manyOnto_eq`, `skipDirectives_eq`, `skipHeader_cons`, `skipDefinitions_cons`: the loops, one
  round at a time;
* `finish_eq`, `rootField_eq`, `document_eq`: the parts of a document.
-/

namespace Intranet.Graphql

/-! ## Blanks and comments -/

/-- A comment is like the end of its line. -/
theorem skipFrom_comment {c : List Char} (hc : '\n' ∉ c) (b : List Char) :
    skipFrom true (c ++ '\n' :: b) = skipFrom false b := by
  induction c with
  | nil => simp [skipFrom]
  | cons d c ih =>
    have hd : d ≠ '\n' := fun h => hc (h ▸ List.mem_cons_self)
    rw [List.cons_append, skipFrom, if_neg hd]
    exact ih fun h => hc (List.mem_cons_of_mem d h)

theorem skipFrom_line (open_ : Bool) (b : List Char) :
    skipFrom open_ ('\n' :: b) = skipFrom false b := by
  cases open_ <;> simp [skipFrom, isIgnored]

theorem skipFrom_append {open_ : Bool} {p rest : List Char} {c : Char}
    (h : skipFrom open_ p = c :: rest) (z : List Char) :
    skipFrom open_ (p ++ z) = c :: (rest ++ z) := by
  induction p generalizing open_ with
  | nil => simp [skipFrom] at h
  | cons d p ih =>
    cases open_ with
    | true =>
      rw [List.cons_append]
      simp only [skipFrom] at h ⊢
      split at h
      · next hd => rw [if_pos hd]; exact ih h
      · next hd => rw [if_neg hd]; exact ih h
    | false =>
      rw [List.cons_append]
      simp only [skipFrom] at h ⊢
      split at h
      · next hd => rw [if_pos hd]; exact ih h
      · next hd =>
        rw [if_neg hd]
        split at h
        · next hs => rw [if_pos hs]; exact ih h
        · next hs => rw [if_neg hs]; cases h; rfl

theorem skipIgnored_append {p rest : List Char} {c : Char} (h : skipIgnored p = c :: rest)
    (z : List Char) : skipIgnored (p ++ z) = c :: (rest ++ z) :=
  skipFrom_append h z

/-- What is left starts with a character that counts. -/
theorem skipFrom_idem (open_ : Bool) (cs : List Char) :
    skipFrom false (skipFrom open_ cs) = skipFrom open_ cs := by
  induction cs generalizing open_ with
  | nil => cases open_ <;> rfl
  | cons c cs ih =>
    cases open_ with
    | true =>
      simp only [skipFrom]
      split
      · exact ih false
      · exact ih true
    | false =>
      by_cases hi : isIgnored c
      · simp only [skipFrom, if_pos hi]
        exact ih false
      · by_cases hc : c = '#'
        · simp only [skipFrom, if_neg hi, if_pos hc]
          exact ih true
        · simp only [skipFrom, if_neg hi, if_neg hc]

@[simp] theorem skipIgnored_idem (cs : List Char) :
    skipIgnored (skipIgnored cs) = skipIgnored cs :=
  skipFrom_idem false cs

@[simp] theorem skipIgnored_nil : skipIgnored [] = [] := rfl

theorem skipIgnored_cons {p rest : List Char} {c : Char} (h : skipIgnored p = c :: rest) :
    skipIgnored (c :: rest) = c :: rest := by
  rw [← h, skipIgnored_idem]

theorem length_of_skipIgnored {p rest : List Char} {c : Char} (h : skipIgnored p = c :: rest) :
    rest.length < p.length := by
  have hle := skipIgnored_length_le p
  rw [h, List.length_cons] at hle
  omega

/-! ## Words and punctuation -/

/-- A letter is no digit. -/
theorem isDigit_of_isNameStart {c : Char} (h : isNameStart c = true) :
    Decimal.isDigit c = false := by
  refine Bool.eq_false_iff.mpr fun hd => ?_
  simp only [isNameStart, Decimal.isDigit, Bool.or_eq_true, Bool.and_eq_true,
    decide_eq_true_eq] at h hd
  rcases h with (rfl | h) | h
  · exact absurd hd.2 (by decide)
  · exact absurd (Char.le_trans h.1 hd.2) (by decide)
  · exact absurd (Char.le_trans h.1 hd.2) (by decide)

theorem name_of_skipIgnored {cs rest : List Char} {c : Char} (h : skipIgnored cs = c :: rest) :
    name cs = if isNameStart c then
      .ok (String.ofList (c :: rest.takeWhile isNameChar), rest.dropWhile isNameChar)
    else .error (.unexpectedChar c) := by
  unfold name
  rw [h]

theorem name_skipIgnored (cs : List Char) : name (skipIgnored cs) = name cs := by
  unfold name
  rw [skipIgnored_idem]

theorem eat?_of_skipIgnored {cs rest : List Char} {c d : Char}
    (h : skipIgnored cs = d :: rest) : eat? c cs = if d = c then some rest else none := by
  unfold eat?
  rw [h]

theorem skipIgnored_of_eat? {c : Char} {cs rest : List Char} (h : eat? c cs = some rest) :
    skipIgnored cs = c :: rest := by
  unfold eat? at h
  split at h
  · next d r hs =>
    split at h
    · next hd =>
      cases h
      rw [hs, hd]
    · cases h
  · cases h

@[simp] theorem eat?_nil (c : Char) : eat? c [] = none := rfl

theorem eat?_skipIgnored (c : Char) (cs : List Char) : eat? c (skipIgnored cs) = eat? c cs := by
  unfold eat?
  rw [skipIgnored_idem]

@[simp] theorem expect_nil (c : Char) : expect c [] = .error (.expected c none) := rfl

theorem expect_skipIgnored (c : Char) (cs : List Char) :
    expect c (skipIgnored cs) = expect c cs := by
  unfold expect
  rw [eat?_skipIgnored, skipIgnored_idem]

theorem expect_of_skipIgnored {cs rest : List Char} {c d : Char}
    (h : skipIgnored cs = d :: rest) :
    expect c cs = if d = c then .ok rest else .error (.expected c (some d)) := by
  unfold expect
  rw [eat?_of_skipIgnored h, h]
  by_cases hd : d = c
  · rw [if_pos hd, if_pos hd]
  · rw [if_neg hd, if_neg hd]
    rfl

/-! ## Strings -/

section Strings

attribute [local simp] stringOnto blockOnto

theorem stringOnto_quote (done rest : List Char) :
    stringOnto done ('"' :: rest) = .ok (done.reverse, rest) := by
  simp

theorem stringOnto_line (done rest : List Char) :
    stringOnto done ('\n' :: rest) = .error .brokenString := by
  simp

theorem stringOnto_plain {c : Char} (hb : c ≠ '\\') (hq : c ≠ '"') (hn : c ≠ '\n')
    (done rest : List Char) : stringOnto done (c :: rest) = stringOnto (c :: done) rest := by
  simp [hb, hq, hn]

theorem stringOnto_escape {e x : Char} (he : e ≠ 'u') (hx : escapeLetter? e = some x)
    (done rest : List Char) :
    stringOnto done ('\\' :: e :: rest) = stringOnto (x :: done) rest := by
  simp [he, hx]

theorem stringOnto_badEscape {e : Char} (he : e ≠ 'u') (hx : escapeLetter? e = none)
    (done rest : List Char) : stringOnto done ('\\' :: e :: rest) = .error (.badEscape e) := by
  simp [he, hx]

theorem stringOnto_codePoint {a b c d x : Char} (hx : codePoint? a b c d = some x)
    (done rest : List Char) :
    stringOnto done ('\\' :: 'u' :: a :: b :: c :: d :: rest) = stringOnto (x :: done) rest := by
  simp [hx]

theorem stringOnto_badCodePoint {cs : List Char}
    (h : ∀ a b c d rest, cs = a :: b :: c :: d :: rest → codePoint? a b c d = none)
    (done : List Char) : stringOnto done ('\\' :: 'u' :: cs) = .error .badCodePoint := by
  match cs with
  | a :: b :: c :: d :: rest => simp [h a b c d rest rfl]
  | [] | [_] | [_, _] | [_, _, _] => simp

theorem blockOnto_close (done rest : List Char) :
    blockOnto done ('"' :: '"' :: '"' :: rest) = .ok (done.reverse, rest) := by
  simp

theorem blockOnto_cons {c : Char} {cs : List Char}
    (h : ∀ rest, c :: cs ≠ '"' :: '"' :: '"' :: rest) (done : List Char) :
    blockOnto done (c :: cs) = blockOnto (c :: done) cs := by
  rw [blockOnto]
  rintro rest rfl rfl
  exact h rest rfl

theorem string_block (rest : List Char) :
    string ('"' :: '"' :: '"' :: rest) =
      (blockOnto [] rest).map fun (s, rest) => (String.ofList s, rest) := by
  simp [string]

theorem string_plain {cs : List Char} (h : ∀ rest, cs ≠ '"' :: '"' :: rest) :
    string ('"' :: cs) = (stringOnto [] cs).map fun (s, rest) => (String.ofList s, rest) := by
  rw [string]
  rintro rest - rfl
  exact h rest rfl

end Strings

/-! ## Going on -/

/-- Goes on with what a reader gives, unless it fails. -/
def proceed {β : Type} (x : Except Malformed β) (k : β → Except Problem Selection) :
    Except Problem Selection :=
  match x with
  | .error e => .error (.malformed e)
  | .ok b => k b

@[simp] theorem proceed_error {β : Type} (e : Malformed) (k : β → Except Problem Selection) :
    proceed (.error e) k = .error (.malformed e) := rfl

@[simp] theorem proceed_ok {β : Type} (b : β) (k : β → Except Problem Selection) :
    proceed (.ok b) k = k b := rfl

theorem eq_ok_of_map {ε α β : Type} {x : Except ε α} {f : α → β} {b : β}
    (h : x.map f = .ok b) : ∃ a, x = .ok a ∧ f a = b := by
  cases x with
  | error e => cases h
  | ok a =>
    refine ⟨a, rfl, ?_⟩
    injection h

theorem proceed_map {α β : Type} (f : α → β) (x : Except Malformed α)
    (k : β → Except Problem Selection) : proceed (x.map f) k = proceed x fun a => k (f a) := by
  cases x <;> rfl

theorem proceed_bind {α β : Type} (x : Except Malformed α) (f : α → Except Malformed β)
    (k : β → Except Problem Selection) :
    proceed (x.bind f) k = proceed x fun a => proceed (f a) k := by
  cases x <;> rfl

theorem lift_bind {β : Type} (x : Except Malformed β) (k : β → Except Problem Selection) :
    ((liftM x : Except Problem β) >>= k) = proceed x k := by
  cases x <;> rfl

/-! ## Values -/

theorem proceed_pairRun {α : Type} (p : Taker α) (cs : List Char)
    (k : (String × α) × List Char → Except Problem Selection) :
    proceed (pairRun p cs) k = proceed (name cs) fun r => proceed (expect ':' r.2) fun rest =>
      proceed (p.run rest) fun s => k ((r.1, s.1), s.2) := by
  unfold pairRun
  cases name cs with
  | error e => rfl
  | ok r =>
    obtain ⟨key, rest⟩ := r
    dsimp only [proceed_ok]
    cases expect ':' rest with
    | error e => rfl
    | ok rest =>
      dsimp only [proceed_ok]
      cases p.run rest <;> rfl

/-- A pair is read in three steps. -/
theorem pair_run_eq {α : Type} (p : Taker α) (cs : List Char) :
    (pair p).run cs = (name cs).bind fun r => (expect ':' r.2).bind fun rest =>
      (p.run rest).map fun s => ((r.1, s.1), s.2) := by
  show pairRun p cs = _
  unfold pairRun
  cases name cs with
  | error e => rfl
  | ok r =>
    obtain ⟨key, r⟩ := r
    dsimp only [Except.bind]
    cases expect ':' r with
    | error e => rfl
    | ok rest =>
      dsimp only
      cases p.run rest <;> rfl

theorem manyOnto_eq {α : Type} (p : Taker α) (close : Char) (done : List α) (cs : List Char) :
    p.manyOnto close done cs = (eat? close cs).elim
      ((p.run cs).bind fun r => p.manyOnto close (r.1 :: done) r.2)
      fun rest => .ok (done.reverse, rest) := by
  rw [Taker.manyOnto]
  split
  · next rest h =>
    rw [h]
    rfl
  · next h =>
    rw [h]
    split
    · next e h =>
      rw [h]
      rfl
    · next a rest h =>
      rw [h]
      rfl

theorem proceed_elim {β γ : Type} (o : Option γ) (x : Except Malformed β)
    (f : γ → Except Malformed β) (k : β → Except Problem Selection) :
    proceed (o.elim x f) k = o.elim (proceed x k) fun c => proceed (f c) k := by
  cases o <;> rfl

theorem proceed_manyOnto {α : Type} (p : Taker α) (close : Char) (done : List α) (cs : List Char)
    (k : List α × List Char → Except Problem Selection) :
    proceed (p.manyOnto close done cs) k = (eat? close cs).elim
      (proceed (p.run cs) fun r => proceed (p.manyOnto close (r.1 :: done) r.2) k)
      fun rest => k (done.reverse, rest) := by
  rw [manyOnto_eq, proceed_elim, proceed_bind]
  rfl

section Heads

variable {inner : Option (Taker Literal)} {p : Taker Literal} {c : Char} {cs rest : List Char}

theorem valueRun_nil (h : skipIgnored cs = []) : valueRun inner cs = .error .unexpectedEnd := by
  unfold valueRun
  rw [h]

theorem valueRun_list (h : skipIgnored cs = '[' :: rest) :
    valueRun (some p) cs = (p.many ']' rest).map fun (items, rest) => (.list items, rest) := by
  unfold valueRun
  rw [h]
  rfl

theorem valueRun_object (h : skipIgnored cs = '\x7b' :: rest) :
    valueRun (some p) cs =
      ((pair p).many '\x7d' rest).map fun (fields, rest) => (.object fields, rest) := by
  unfold valueRun
  rw [h]
  rfl

theorem valueRun_deep (hc : c = '[' ∨ c = '\x7b') (h : skipIgnored cs = c :: rest) :
    valueRun none cs = .error .tooDeep := by
  unfold valueRun
  rw [h]
  rcases hc with rfl | rfl <;> rfl

theorem valueRun_ref (h : skipIgnored cs = '$' :: rest) :
    valueRun inner cs = (name rest).map fun (n, rest) => (.ref n, rest) := by
  unfold valueRun
  rw [h]
  rfl

theorem valueRun_string (h : skipIgnored cs = '"' :: rest) :
    valueRun inner cs = (string ('"' :: rest)).map fun (s, rest) => (.string s, rest) := by
  unfold valueRun
  rw [h]
  rfl

theorem valueRun_number (hc : c = '-' ∨ Decimal.isDigit c = true)
    (h : skipIgnored cs = c :: rest) :
    valueRun inner cs = (number (c :: rest)).map fun (n, rest) => (.ofNumber n, rest) := by
  have hne : ∀ d, d ≠ '-' → Decimal.isDigit d = false → c ≠ d := by
    rintro d hd hn rfl
    rcases hc with rfl | hc
    · exact hd rfl
    · rw [hn] at hc
      cases hc
  unfold valueRun
  rw [h]
  dsimp only
  rw [if_neg (hne '[' (by decide) (by decide)), if_neg (hne '\x7b' (by decide) (by decide)),
    if_neg (hne '$' (by decide) (by decide)), if_neg (hne '"' (by decide) (by decide)),
    if_pos hc]

theorem valueRun_name (hc : isNameStart c = true) (h : skipIgnored cs = c :: rest) :
    valueRun inner cs = (name (c :: rest)).map fun (n, rest) => (.ofName n, rest) := by
  have hne : ∀ d, isNameStart d = false → c ≠ d := by
    rintro d hd rfl
    rw [hd] at hc
    cases hc
  have hd : ¬(c = '-' ∨ Decimal.isDigit c = true) := by
    rw [isDigit_of_isNameStart hc]
    rintro (rfl | hd)
    · cases hc
    · cases hd
  unfold valueRun
  rw [h]
  dsimp only
  rw [if_neg (hne '[' (by decide)), if_neg (hne '\x7b' (by decide)), if_neg (hne '$' (by decide)),
    if_neg (hne '"' (by decide)), if_neg hd, if_pos hc]

theorem valueRun_unexpected (hc : c ∉ ['[', '\x7b', '$', '"', '-'])
    (hd : Decimal.isDigit c = false) (hn : isNameStart c = false)
    (h : skipIgnored cs = c :: rest) :
    valueRun inner cs = .error (.unexpectedChar c) := by
  simp only [List.mem_cons, List.not_mem_nil, or_false, not_or] at hc
  unfold valueRun
  rw [h]
  simp [hc, hd, hn]

end Heads

theorem valueRun_skipIgnored (inner : Option (Taker Literal)) (cs : List Char) :
    valueRun inner (skipIgnored cs) = valueRun inner cs := by
  unfold valueRun
  rw [skipIgnored_idem]

/-! ## Groups -/

@[simp] theorem skipGroup_nil (g : Group) (depth : Nat) :
    skipGroup g depth [] = .error (.openGroup g depth) := by
  rw [skipGroup]

theorem skipGroup_quote (g : Group) (depth : Nat) (rest : List Char) :
    skipGroup g depth ('"' :: rest) = (string ('"' :: rest)).bind fun r =>
      skipGroup g depth r.2 := by
  rw [skipGroup.eq_def]
  dsimp only
  rw [if_pos rfl]
  split
  · next e h =>
    rw [h]
    rfl
  · next s r h =>
    rw [h]
    rfl

theorem skipGroup_open (g : Group) (depth : Nat) (rest : List Char) :
    skipGroup g depth (g.opening :: rest) = skipGroup g (depth + 1) rest := by
  rw [skipGroup.eq_def]
  dsimp only
  rw [if_neg g.opening_ne_quote, if_pos rfl]

theorem skipGroup_end (g : Group) (rest : List Char) :
    skipGroup g 0 (g.closing :: rest) = .ok rest := by
  rw [skipGroup.eq_def]
  dsimp only
  rw [if_neg g.closing_ne_quote, if_neg g.closing_ne_opening, if_pos rfl]

theorem skipGroup_close (g : Group) (depth : Nat) (rest : List Char) :
    skipGroup g (depth + 1) (g.closing :: rest) = skipGroup g depth rest := by
  rw [skipGroup.eq_def]
  dsimp only
  rw [if_neg g.closing_ne_quote, if_neg g.closing_ne_opening, if_pos rfl]

theorem skipGroup_other {g : Group} {c : Char} (hq : c ≠ '"') (ho : c ≠ g.opening)
    (hc : c ≠ g.closing) (depth : Nat) (rest : List Char) :
    skipGroup g depth (c :: rest) = skipGroup g depth rest := by
  rw [skipGroup.eq_def]
  dsimp only
  rw [if_neg hq, if_neg ho, if_neg hc]

/-! ## Directives and later definitions -/

theorem skipDirectives_eq (cs : List Char) :
    skipDirectives cs = (eat? '@' cs).elim (.ok (skipIgnored cs)) fun rest =>
      (name rest).bind fun r => (eat? '(' r.2).elim (skipDirectives r.2) fun inside =>
        (arguments inside).bind fun s => skipDirectives s.2 := by
  rw [skipDirectives]
  split
  · next h =>
    rw [h]
    rfl
  · next rest h =>
    rw [h]
    dsimp only [Option.elim]
    split
    · next e hn =>
      rw [hn]
      rfl
    · next w rest hn =>
      rw [hn]
      dsimp only [Except.bind]
      split
      · next hp => rw [hp]
      · next inside hp =>
        rw [hp]
        dsimp only [Option.elim]
        split
        · next e hg => rw [hg]
        · next args rest hg => rw [hg]

@[simp] theorem skipDirectives_nil : skipDirectives [] = .ok [] := by
  rw [skipDirectives_eq]
  rfl

theorem skipDirectives_of_ne {cs rest : List Char} {c : Char} (h : skipIgnored cs = c :: rest)
    (hc : c ≠ '@') : skipDirectives cs = .ok (c :: rest) := by
  rw [skipDirectives_eq, eat?_of_skipIgnored h, if_neg hc, h]
  rfl

theorem skipDirectives_skipIgnored (cs : List Char) :
    skipDirectives (skipIgnored cs) = skipDirectives cs := by
  rw [skipDirectives_eq, skipDirectives_eq cs, eat?_skipIgnored, skipIgnored_idem]

theorem proceed_skipDirectives (cs : List Char) (k : List Char → Except Problem Selection) :
    proceed (skipDirectives cs) k = (eat? '@' cs).elim (k (skipIgnored cs)) fun rest =>
      proceed (name rest) fun r => (eat? '(' r.2).elim
        (proceed (skipDirectives (skipIgnored r.2)) k) fun inside =>
          proceed (arguments inside) fun s => proceed (skipDirectives s.2) k := by
  rw [skipDirectives_eq, proceed_elim]
  simp only [proceed_bind, proceed_elim, skipDirectives_skipIgnored]
  rfl

theorem skipHeader_nil {cs : List Char} (h : skipIgnored cs = []) :
    skipHeader cs = .error .unexpectedEnd := by
  rw [skipHeader]
  split
  · rfl
  · next hs => rw [h] at hs; cases hs

theorem skipHeader_cons {cs rest : List Char} {c : Char} (h : skipIgnored cs = c :: rest) :
    skipHeader cs =
      if c = '\x7b' then .ok rest
      else if c = '(' then (skipGroup .laterHeader 0 rest).bind skipHeader
      else if c = '"' then (string (c :: rest)).bind fun r => skipHeader r.2
      else if isHeaderChar c then skipHeader rest
      else .error (.unexpectedChar c) := by
  rw [skipHeader]
  split
  · next hs => rw [h] at hs; cases hs
  · next d r hs =>
    rw [h] at hs
    cases hs
    by_cases hb : c = '\x7b'
    · rw [if_pos hb, if_pos hb]
    rw [if_neg hb, if_neg hb]
    by_cases hp : c = '('
    · rw [if_pos hp, if_pos hp]
      cases skipGroup .laterHeader 0 rest <;> rfl
    rw [if_neg hp, if_neg hp]
    by_cases hq : c = '"'
    · rw [if_pos hq, if_pos hq]
      cases string (c :: rest) <;> rfl
    rw [if_neg hq, if_neg hq]

theorem skipHeader_skipIgnored (cs : List Char) : skipHeader (skipIgnored cs) = skipHeader cs := by
  cases hs : skipIgnored cs with
  | nil => rw [skipHeader_nil rfl, skipHeader_nil hs]
  | cons c rest => rw [skipHeader_cons (skipIgnored_cons hs), skipHeader_cons hs]

theorem skipDefinitions_nil {cs : List Char} (h : skipIgnored cs = []) :
    skipDefinitions cs = .ok () := by
  rw [skipDefinitions]
  split
  · rfl
  · next hs => rw [h] at hs; cases hs

theorem skipDefinitions_cons {cs rest : List Char} {c : Char} (h : skipIgnored cs = c :: rest) :
    skipDefinitions cs =
      if c = '\x7b' then (skipGroup .laterSelection 0 rest).bind skipDefinitions
      else if isNameStart c then (name (c :: rest)).bind fun r =>
        if r.1 ∈ definitionWords then (skipHeader r.2).bind fun rest =>
          (skipGroup .laterSelection 0 rest).bind skipDefinitions
        else .error (.unexpectedName r.1)
      else .error (.unexpectedChar c) := by
  rw [skipDefinitions]
  split
  · next hs => rw [h] at hs; cases hs
  · next d r hs =>
    rw [h] at hs
    cases hs
    by_cases hb : c = '\x7b'
    · rw [if_pos hb, if_pos hb]
      cases skipGroup .laterSelection 0 rest <;> rfl
    rw [if_neg hb, if_neg hb]
    by_cases hc : isNameStart c
    · rw [if_pos hc, if_pos hc]
      cases name (c :: rest) with
      | error e => rfl
      | ok r =>
        dsimp only [Except.bind]
        by_cases hw : r.1 ∈ definitionWords
        · rw [if_pos hw, if_pos hw]
          cases skipHeader r.2 with
          | error e => rfl
          | ok rest =>
            dsimp only
            cases skipGroup .laterSelection 0 rest <;> rfl
        · rw [if_neg hw, if_neg hw]
    · rw [if_neg hc, if_neg hc]

theorem skipDefinitions_skipIgnored (cs : List Char) :
    skipDefinitions (skipIgnored cs) = skipDefinitions cs := by
  cases hs : skipIgnored cs with
  | nil => rw [skipDefinitions_nil rfl, skipDefinitions_nil hs]
  | cons c rest => rw [skipDefinitions_cons (skipIgnored_cons hs), skipDefinitions_cons hs]

/-! ## After a skipped group -/

/-- How a document is read on after a skipped group. Of the selection only what was read before the
group counts: for variable definitions the operation, else all of it. -/
def resume (g : Group) (s : Selection) (cs : List Char) : Except Problem Selection :=
  match g with
  | .header => proceed (skipDirectives cs) (rootField s.operation)
  | .selection => finish s cs
  | .laterHeader =>
    proceed (skipHeader cs) fun cs =>
      proceed (skipGroup .laterSelection 0 cs) fun cs =>
        proceed (skipDefinitions cs) fun _ => .ok s
  | .laterSelection => proceed (skipDefinitions cs) fun _ => .ok s

/-- How a document is read on inside a skipped group. -/
def passing (g : Group) (depth : Nat) (s : Selection) (cs : List Char) :
    Except Problem Selection :=
  proceed (skipGroup g depth cs) (resume g s)

/-! ## The root field -/

theorem startsFragment_cons (a b c : Char) (rest : List Char) :
    startsFragment (a :: b :: c :: rest) = decide (a = '.' ∧ b = '.' ∧ c = '.') := by
  unfold startsFragment
  split
  · next h =>
    cases h
    rfl
  · next h =>
    refine (decide_eq_false fun hd => ?_).symm
    obtain ⟨rfl, rfl, rfl⟩ := hd
    exact h rest rfl

theorem startsSelection_eq (c : Char) (rest : List Char) :
    startsSelection (c :: rest) = (startsFragment (c :: rest) || isNameStart c) := by
  unfold startsSelection startsFragment
  split <;> simp_all

theorem finish_eq (s : Selection) (cs : List Char) :
    finish s cs = if startsSelection (skipIgnored cs) then
      .error (.unsupported (.secondField s.name))
    else proceed (expect '\x7d' cs) (resume .laterSelection s) := by
  unfold finish
  simp only [lift_bind, expect_skipIgnored]
  rfl

theorem fieldName_eq (cs : List Char) :
    fieldName cs = (name cs).bind fun r => (eat? ':' r.2).elim
      (.ok ((none, r.1), skipIgnored r.2)) fun rest =>
        (name rest).map fun t => ((some r.1, t.1), t.2) := by
  unfold fieldName
  cases name cs with
  | error e => rfl
  | ok r =>
    dsimp only [bind, Except.bind]
    cases eat? ':' r.2 with
    | none => rfl
    | some rest =>
      dsimp only [Option.elim]
      cases name rest <;> rfl

theorem proceed_fieldName (cs : List Char)
    (k : Option String × String → List Char → Except Problem Selection) :
    proceed (fieldName cs) (fun r => k r.1 r.2) = proceed (name cs) fun r =>
      (eat? ':' r.2).elim (k (none, r.1) (skipIgnored r.2)) fun rest =>
        proceed (name rest) fun t => k (some r.1, t.1) t.2 := by
  rw [fieldName_eq, proceed_bind]
  simp only [proceed_elim, proceed_map]
  rfl

/-- What comes after the arguments of the root field: directives, a selection, the end. -/
def afterArguments (s : Selection) (cs : List Char) : Except Problem Selection :=
  proceed (skipDirectives cs) fun cs => proceed (skipSelection cs) (finish s)

theorem rootField_eq (op : Operation) (cs : List Char) :
    rootField op cs = proceed (expect '\x7b' cs) fun rest =>
      if startsFragment (skipIgnored rest) then .error (.unsupported .rootFragment)
      else proceed (fieldName (skipIgnored rest)) fun r =>
        proceed (fieldArguments r.2) fun t =>
          afterArguments ⟨op, r.1.2, r.1.1, t.1⟩ t.2 := by
  unfold rootField afterArguments
  simp only [lift_bind]
  rfl

/-! ## The operation -/

/-- What is known of a selection in the header of its operation. -/
def ahead (op : Operation) : Selection := ⟨op, "", none, []⟩

/-- What comes after the keyword of an operation. -/
def afterKeyword (op : Operation) (cs : List Char) : Except Problem Selection :=
  proceed (skipName cs) fun cs => proceed (skipVariables cs) (resume .header (ahead op))

theorem operationHeader_eq (cs : List Char) :
    operationHeader cs = (skipName cs).bind fun cs => (skipVariables cs).bind skipDirectives := by
  unfold operationHeader
  rfl

theorem document_eq (cs : List Char) :
    document cs = if (skipIgnored cs).head? = some '\x7b' then rootField .query (skipIgnored cs)
      else proceed (name cs) fun r =>
        if r.1 = "query" then afterKeyword .query r.2
        else if r.1 = "mutation" then afterKeyword .mutation r.2
        else if r.1 = "subscription" then .error (.unsupported .subscription)
        else .error (.malformed (.unexpectedName r.1)) := by
  have hheader : ∀ op cs, ((do
      let rest ← (operationHeader cs : Except Malformed _)
      return (op, rest) : Except Problem (Operation × List Char)) >>= fun r => rootField r.1 r.2) =
      afterKeyword op cs := by
    intro op cs
    unfold afterKeyword resume
    rw [operationHeader_eq]
    cases skipName cs with
    | error e => rfl
    | ok r =>
      show Except.bind (Except.bind (Except.mapError _ ((skipVariables r).bind skipDirectives)) _)
            _ =
        proceed (skipVariables r) _
      cases skipVariables r with
      | error e => rfl
      | ok q =>
        show Except.bind (Except.bind (Except.mapError _ (skipDirectives q)) _) _ =
          proceed (skipDirectives q) _
        cases skipDirectives q <;> rfl
  unfold document operation
  by_cases hb : (skipIgnored cs).head? = some '\x7b'
  · rw [if_pos hb, if_pos hb]
    rfl
  · rw [if_neg hb, if_neg hb, name_skipIgnored]
    cases name cs with
    | error e => rfl
    | ok r =>
      dsimp only [proceed_ok]
      rw [← hheader, ← hheader]
      show ((if r.1 = "query" then _ else _) >>= _ : Except Problem Selection) = _
      by_cases hq : r.1 = "query"
      · rw [if_pos hq, if_pos hq]
      rw [if_neg hq, if_neg hq]
      by_cases hm : r.1 = "mutation"
      · rw [if_pos hm, if_pos hm]
      rw [if_neg hm, if_neg hm]
      by_cases hu : r.1 = "subscription"
      · rw [if_pos hu, if_pos hu]
        rfl
      · rw [if_neg hu, if_neg hu]
        rfl

theorem skipName_skipIgnored (cs : List Char) : skipName (skipIgnored cs) = skipName cs := by
  unfold skipName
  rw [skipIgnored_idem]

end Intranet.Graphql
