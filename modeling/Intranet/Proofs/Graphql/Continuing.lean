import Intranet.Proofs.Graphql.Prefixes

/-!
# Readers in longer texts

A reader that stops before the end of a text stops at the same place in any longer one: it has seen
the character that does not belong to what it reads. Only where nothing is left could a word, a
number or an empty string go on.

Main results:

* `Keeps`, `literal_keeps`, `arguments_keeps`: what is read stays read if the text goes on;
* `skipGroup_append`, `skipHeader_append`: so does what is passed over between brackets;
* `skipDefinitions_append_line`: behind definitions, a line is read like the start of a text.
-/

namespace Intranet.Graphql

/-! ## Readers that leave something -/

/-- A reader that leaves a text, and not the empty one, reads the same if the text goes on. -/
structure Keeps {α : Type} (R : List Char → Except Malformed (α × List Char)) : Prop extends
    Settles R where
  keeps : ∀ {p q : List Char} {a : α}, R p = .ok (a, q) → q ≠ [] →
    ∀ z, R (p ++ z) = .ok (a, q ++ z)

section Pieces

variable {c : Char} {p q : List Char}

theorem skipIgnored_append_of_ne (h : skipIgnored p ≠ []) (z : List Char) :
    skipIgnored (p ++ z) = skipIgnored p ++ z := by
  cases hs : skipIgnored p with
  | nil => exact absurd hs h
  | cons c rest => exact skipIgnored_append hs z

/-- Where something is read, something is left once blanks are passed. -/
theorem Settles.skipIgnored_ne_nil {α : Type} {R : List Char → Except Malformed (α × List Char)}
    (hR : Settles R) {r : α × List Char} (h : R p = .ok r) : skipIgnored p ≠ [] := by
  intro hp
  obtain ⟨e, he, -⟩ := hR.wants
  rw [← hR.skips, hp, he] at h
  cases h

theorem head?_append_of_ne (h : p ≠ []) (z : List Char) : (p ++ z).head? = p.head? := by
  cases p with
  | nil => exact absurd rfl h
  | cons c p => rfl

theorem eat?_append (h : eat? c p = some q) (z : List Char) : eat? c (p ++ z) = some (q ++ z) := by
  cases hs : skipIgnored p with
  | nil =>
    rw [← eat?_skipIgnored, hs] at h
    cases h
  | cons d rest =>
    rw [eat?_of_skipIgnored hs] at h
    rw [eat?_of_skipIgnored (skipIgnored_append hs z)]
    split at h
    · next hd =>
      cases h
      rw [if_pos hd]
    · cases h

theorem eat?_append_none (h : eat? c p = none) (hp : skipIgnored p ≠ []) (z : List Char) :
    eat? c (p ++ z) = none := by
  cases hs : skipIgnored p with
  | nil => exact absurd hs hp
  | cons d rest =>
    rw [eat?_of_skipIgnored hs] at h
    rw [eat?_of_skipIgnored (skipIgnored_append hs z)]
    split at h
    · cases h
    · next hd => rw [if_neg hd]

theorem expect_append (h : expect c p = .ok q) (z : List Char) :
    expect c (p ++ z) = .ok (q ++ z) := by
  unfold expect at h ⊢
  cases he : eat? c p with
  | none =>
    rw [he] at h
    cases h
  | some rest =>
    rw [he] at h
    cases h
    rw [eat?_append he]

/-- A run of characters that ends before the text does ends there in a longer text. -/
theorem run_append {t : Char → Bool} (h : p.dropWhile t ≠ []) (z : List Char) :
    (p ++ z).takeWhile t = p.takeWhile t ∧ (p ++ z).dropWhile t = p.dropWhile t ++ z := by
  induction p with
  | nil => simp at h
  | cons c p ih =>
    by_cases hc : t c = true
    · simp only [List.cons_append, List.takeWhile_cons, List.dropWhile_cons, hc, if_true] at h ⊢
      obtain ⟨htake, hdrop⟩ := ih h
      exact ⟨by rw [htake], hdrop⟩
    · simp [hc]

end Pieces

/-! ## Tokens -/

theorem name_keeps : Keeps name where
  toSettles := name_settles
  keeps {p q a} h hq z := by
    cases hs : skipIgnored p with
    | nil => exact absurd hs (name_settles.skipIgnored_ne_nil h)
    | cons c rest =>
      rw [name_of_skipIgnored hs] at h
      rw [name_of_skipIgnored (skipIgnored_append hs z)]
      by_cases hc : isNameStart c
      · rw [if_pos hc] at h ⊢
        cases h
        obtain ⟨htake, hdrop⟩ := run_append hq z
        rw [htake, hdrop]
      · rw [if_neg hc] at h
        cases h

theorem number_append_of_ne {p q : List Char} {n : Number}
    (h : number p = .ok (n, q)) (hq : q ≠ []) (z : List Char) :
    number (p ++ z) = .ok (n, q ++ z) := by
  have hrest : q = p.dropWhile isNumberChar := by
    unfold number at h
    dsimp only at h
    split at h
    · cases h
      rfl
    · cases h
  obtain ⟨htake, hdrop⟩ := run_append (hrest ▸ hq) z
  unfold number at h ⊢
  rw [htake, hdrop]
  dsimp only at h ⊢
  split at h
  · cases h
    rfl
  · cases h

/-- A string ends at its closing quote, whatever follows. -/
theorem stringOnto_append {done p s q : List Char} (h : stringOnto done p = .ok (s, q))
    (z : List Char) : stringOnto done (p ++ z) = .ok (s, q ++ z) := by
  fun_induction stringOnto done p with
  | case1 | case2 | case4 | case5 | case7 | case9 => cases h
  | case3 done a b c d rest x hx ih =>
    simp only [List.cons_append]
    rw [stringOnto_codePoint hx, ih h]
  | case6 done e rest _ he x hx ih =>
    simp only [List.cons_append]
    rw [stringOnto_escape he hx, ih h]
  | case8 done rest =>
    cases h
    rw [List.cons_append, stringOnto_quote]
  | case10 done c rest hb _ hb' hq hn ih =>
    have hc : c ≠ '\\' := by
      rintro rfl
      cases rest with
      | nil => exact hb rfl rfl
      | cons e rest => exact hb' e rest rfl rfl
    rw [List.cons_append, stringOnto_plain hc hq hn, ih h]

theorem blockOnto_append {done p s q : List Char} (h : blockOnto done p = .ok (s, q))
    (z : List Char) : blockOnto done (p ++ z) = .ok (s, q ++ z) := by
  fun_induction blockOnto done p with
  | case1 => cases h
  | case2 done rest =>
    cases h
    simp only [List.cons_append]
    rw [blockOnto_close]
  | case3 done c rest hp ih =>
    rw [List.cons_append, blockOnto_cons, ih h]
    -- Three quotes that reach into the text behind would leave the block open here.
    intro r hr
    rcases rest with _ | ⟨d, _ | ⟨e, rest⟩⟩
    · cases h
    · cases hr
      simp [blockOnto] at h
    · cases hr
      exact hp rest rfl rfl

/-- Only an empty string could become a block if the text goes on. -/
theorem string_append {p q : List Char} {s : String} (h : string ('"' :: p) = .ok (s, q))
    (hq : q ≠ []) (z : List Char) : string ('"' :: p ++ z) = .ok (s, q ++ z) := by
  by_cases hb : ∃ rest, p = '"' :: '"' :: rest
  · obtain ⟨rest, rfl⟩ := hb
    rw [string_block] at h
    obtain ⟨⟨s', q'⟩, hr, hs⟩ := eq_ok_of_map h
    cases hs
    simp only [List.cons_append]
    rw [string_block, blockOnto_append hr]
    rfl
  · have hp : ∀ rest, p ≠ '"' :: '"' :: rest := fun rest hr => hb ⟨rest, hr⟩
    rw [string_plain hp] at h
    obtain ⟨⟨s', q'⟩, hr, hs⟩ := eq_ok_of_map h
    cases hs
    rw [List.cons_append, string_plain, stringOnto_append hr]
    · rfl
    · intro r hz
      rcases p with _ | ⟨d, _ | ⟨e, p⟩⟩
      · cases hr
      · cases hz
        rw [stringOnto_quote] at hr
        cases hr
        exact hq rfl
      · cases hz
        exact hp p rfl

/-! ## Values -/

theorem Keeps.pair {α : Type} {p : Taker α} (hp : Keeps p.run) : Keeps (pair p).run where
  toSettles := hp.toSettles.pair
  keeps {cs q a} h hq z := by
    change pairRun p cs = _ at h
    change pairRun p (cs ++ z) = _
    unfold pairRun at h ⊢
    cases hn : name cs with
    | error e =>
      rw [hn] at h
      cases h
    | ok r =>
      obtain ⟨key, r₁⟩ := r
      rw [hn] at h
      dsimp only at h
      cases he : expect ':' r₁ with
      | error e =>
        rw [he] at h
        cases h
      | ok r₂ =>
        rw [he] at h
        dsimp only at h
        cases hr : p.run r₂ with
        | error e =>
          rw [hr] at h
          cases h
        | ok r =>
          obtain ⟨b, r₃⟩ := r
          rw [hr] at h
          cases h
          have hr₁ : r₁ ≠ [] := by
            rintro rfl
            cases he
          rw [name_keeps.keeps hn hr₁ z]
          dsimp only
          rw [expect_append he]
          dsimp only
          rw [hp.keeps hr hq z]

/-- Items up to their closing character stay read, whatever follows. -/
theorem manyOnto_append {α : Type} {p : Taker α} (hp : Keeps p.run) {close : Char}
    {done as : List α} {cs q : List Char} (h : p.manyOnto close done cs = .ok (as, q))
    (z : List Char) : p.manyOnto close done (cs ++ z) = .ok (as, q ++ z) := by
  fun_induction p.manyOnto close done cs with
  | case1 done cs r he =>
    cases h
    rw [manyOnto_eq, eat?_append he]
    rfl
  | case2 => cases h
  | case3 done cs he a r hr ih =>
    have hne : r ≠ [] := by
      rintro rfl
      have := Taker.manyOnto_shorter h
      simp at this
    rw [manyOnto_eq, eat?_append_none he (hp.skipIgnored_ne_nil hr), hp.keeps hr hne]
    exact ih h

theorem many_append {α : Type} {p : Taker α} (hp : Keeps p.run) {close : Char} {as : List α}
    {cs q : List Char} (h : p.many close cs = .ok (as, q)) (z : List Char) :
    p.many close (cs ++ z) = .ok (as, q ++ z) :=
  manyOnto_append hp h z

theorem Keeps.many {α : Type} {p : Taker α} (hp : Keeps p.run) (close : Char) :
    Keeps (p.many close) where
  toSettles := hp.toSettles.many close
  keeps h _ z := many_append hp h z

/-- A value stays read if the values inside it do. -/
theorem valueRun_keeps {inner : Option (Taker Literal)}
    (hi : ∀ p, inner = some p → Keeps p.run) : Keeps (valueRun inner) where
  toSettles := valueRun_settles fun p hp => (hi p hp).toSettles
  keeps {p q a} h hq z := by
    cases hs : skipIgnored p with
    | nil =>
      rw [valueRun_nil hs] at h
      cases h
    | cons c rest =>
      have hz := skipIgnored_append hs z
      by_cases hdeep : inner = none ∧ (c = '[' ∨ c = '\x7b')
      · obtain ⟨rfl, hc⟩ := hdeep
        rw [valueRun_deep hc hs] at h
        cases h
      by_cases hl : c = '['
      · subst hl
        cases inner with
        | none => simp at hdeep
        | some i =>
          rw [valueRun_list hs] at h
          obtain ⟨r, hr, hv⟩ := eq_ok_of_map h
          cases hv
          rw [valueRun_list hz, many_append (hi i rfl) hr]
          rfl
      by_cases ho : c = '\x7b'
      · subst ho
        cases inner with
        | none => simp at hdeep
        | some i =>
          rw [valueRun_object hs] at h
          obtain ⟨r, hr, hv⟩ := eq_ok_of_map h
          cases hv
          rw [valueRun_object hz, many_append (hi i rfl).pair hr]
          rfl
      by_cases hr : c = '$'
      · subst hr
        rw [valueRun_ref hs] at h
        obtain ⟨r, hr, hv⟩ := eq_ok_of_map h
        cases hv
        rw [valueRun_ref hz, name_keeps.keeps hr hq]
        rfl
      by_cases hquote : c = '"'
      · subst hquote
        rw [valueRun_string hs] at h
        obtain ⟨r, hr, hv⟩ := eq_ok_of_map h
        cases hv
        rw [valueRun_string hz, ← List.cons_append, string_append hr hq]
        rfl
      by_cases hd : c = '-' ∨ Decimal.isDigit c = true
      · rw [valueRun_number hd hs] at h
        obtain ⟨r, hr, hv⟩ := eq_ok_of_map h
        cases hv
        rw [valueRun_number hd hz, ← List.cons_append, number_append_of_ne hr hq]
        rfl
      by_cases hn : isNameStart c = true
      · rw [valueRun_name hn hs] at h
        obtain ⟨r, hr, hv⟩ := eq_ok_of_map h
        cases hv
        rw [valueRun_name hn hz, ← List.cons_append, name_keeps.keeps hr hq]
        rfl
      · rw [not_or, Bool.not_eq_true] at hd
        rw [valueRun_unexpected (by simp [hl, ho, hr, hquote, hd]) hd.2
          (by simpa using hn) hs] at h
        cases h

theorem literal_keeps (n : Nat) : Keeps (literal n).run := by
  induction n with
  | zero =>
    show Keeps (valueRun none)
    apply valueRun_keeps
    intro p hp
    cases hp
  | succ n ih =>
    show Keeps (valueRun (some (literal n)))
    apply valueRun_keeps
    intro p hp
    cases hp
    exact ih

theorem arguments_keeps : Keeps arguments :=
  (literal_keeps maxDepth).pair.many ')'

/-- A group ends at its closing character, whatever follows. -/
theorem skipGroup_append {g : Group} {depth : Nat} {p q : List Char}
    (h : skipGroup g depth p = .ok q) (z : List Char) :
    skipGroup g depth (p ++ z) = .ok (q ++ z) := by
  fun_induction skipGroup g depth p with
  | case1 => cases h
  | case2 => cases h
  | case3 depth rest s rest' hs ih =>
    have hne : rest' ≠ [] := by
      rintro rfl
      have := skipGroup_shorter h
      simp at this
    rw [List.cons_append, skipGroup_quote, ← List.cons_append, string_append hs hne]
    exact ih h
  | case4 depth rest _ ih =>
    rw [List.cons_append, skipGroup_open]
    exact ih h
  | case5 rest =>
    cases h
    rw [List.cons_append, skipGroup_end]
  | case6 rest _ _ depth ih =>
    rw [List.cons_append, skipGroup_close]
    exact ih h
  | case7 depth c rest hq ho hc ih =>
    rw [List.cons_append, skipGroup_other hq ho hc]
    exact ih h

/-! ## Later definitions -/

/-- The end of a line ends what is left open of blanks and comments. -/
theorem skipFrom_append_line {open_ : Bool} {p : List Char} (h : skipFrom open_ p = [])
    (z : List Char) : skipFrom open_ (p ++ '\n' :: z) = skipFrom false z := by
  induction p generalizing open_ with
  | nil => exact skipFrom_line open_ z
  | cons c p ih =>
    cases open_ with
    | true =>
      by_cases hc : c = '\n'
      · simp only [List.cons_append, skipFrom, if_pos hc] at h ⊢
        exact ih h
      · simp only [List.cons_append, skipFrom, if_neg hc] at h ⊢
        exact ih h
    | false =>
      by_cases hi : isIgnored c = true
      · simp only [List.cons_append, skipFrom, if_pos hi] at h ⊢
        exact ih h
      · by_cases hc : c = '#'
        · simp only [List.cons_append, skipFrom, if_neg hi, if_pos hc] at h ⊢
          exact ih h
        · simp [skipFrom, hi, hc] at h

theorem skipHeader_append {p q : List Char} (h : skipHeader p = .ok q) (z : List Char) :
    skipHeader (p ++ z) = .ok (q ++ z) := by
  fun_induction skipHeader p with
  | case1 => cases h
  | case2 cs rest hs =>
    cases h
    rw [skipHeader_cons (skipIgnored_append hs z), if_pos rfl]
  | case3 => cases h
  | case4 cs rest rest' hg hs hb ih =>
    rw [skipHeader_cons (skipIgnored_append hs z), if_neg hb, if_pos rfl, skipGroup_append hg]
    exact ih h
  | case5 => cases h
  | case6 cs rest s rest' hs hb hp ht ih =>
    have hne : rest' ≠ [] := by
      rintro rfl
      rw [skipHeader_nil rfl] at h
      cases h
    rw [skipHeader_cons (skipIgnored_append hs z), if_neg hb, if_neg hp, if_pos rfl,
      ← List.cons_append, string_append ht hne]
    exact ih h
  | case7 cs c rest hs hb hp hq hc ih =>
    rw [skipHeader_cons (skipIgnored_append hs z), if_neg hb, if_neg hp, if_neg hq, if_pos hc]
    exact ih h
  | case8 => cases h

/-- Behind definitions that are accepted, a line is read like the start of a text. -/
theorem skipDefinitions_append_line {p : List Char} (h : skipDefinitions p = .ok ())
    (z : List Char) : skipDefinitions (p ++ '\n' :: z) = skipDefinitions z := by
  fun_induction skipDefinitions p with
  | case1 cs hs =>
    rw [← skipDefinitions_skipIgnored, ← skipDefinitions_skipIgnored z]
    exact congrArg skipDefinitions (skipFrom_append_line hs z)
  | case2 => cases h
  | case3 cs rest rest' hg hs ih =>
    rw [skipDefinitions_cons (skipIgnored_append hs _), if_pos rfl, skipGroup_append hg]
    exact ih h
  | case4 => cases h
  | case5 => cases h
  | case6 => cases h
  | case7 cs c rest hs hb hc word rest₁ hw hn rest₂ hh rest₃ hg ih =>
    have hne : rest₁ ≠ [] := by
      rintro rfl
      rw [skipHeader_nil rfl] at hh
      cases hh
    rw [skipDefinitions_cons (skipIgnored_append hs _), if_neg hb, if_pos hc, ← List.cons_append,
      name_keeps.keeps hw hne]
    show (if word ∈ definitionWords then _ else _) = _
    rw [if_pos hn, skipHeader_append hh]
    show (skipGroup .laterSelection 0 (rest₂ ++ _)).bind skipDefinitions = _
    rw [skipGroup_append hg]
    exact ih h
  | case8 => cases h
  | case9 => cases h

end Intranet.Graphql
