import Intranet.Proofs.Graphql.Reading
import Intranet.Proofs.Words

/-!
# Layouts of tokens

A document is written as tokens with blanks between them. One sequence of tokens has many layouts,
and a string many spellings; the readers take the first token of any of them and leave a text that
starts with the others.

Main results:

* `string_spelled`: a string is read back from each of its spellings;
* `Laid.leads`: a layout may stand in front of any text;
* `Leads.split`: what stands in front of a token, and that it ends where it should;
* `Leads.eat?`, `Leads.expect`, `Leads.name`, `Leads.number`, `Leads.string`: reading the first
  token.
-/

namespace Intranet.Graphql

/-! ## Spellings of strings -/

/-- The letters that a backslash may stand before, with what they stand for. -/
def escapes : List (Char × Char) :=
  [('"', '"'), ('\\', '\\'), ('/', '/'), ('b', '\x08'), ('f', '\x0c'), ('n', '\n'), ('r', '\r'),
    ('t', '\t')]

/-- The ways to write the characters of a string between its quotes. -/
inductive Spells : List Char → List Char → Prop where
  | nil : Spells [] []
  | raw {c : Char} {t s : List Char} (hc : c ∉ ['"', '\\', '\n']) (h : Spells t s) :
    Spells (c :: t) (c :: s)
  | escape {e x : Char} {t s : List Char} (he : (e, x) ∈ escapes) (h : Spells t s) :
    Spells ('\\' :: e :: t) (x :: s)
  /-- Four hexadecimal digits. Surrogates are no characters, so none is spelled this way. -/
  | unicode {a b c d x : Char} {i j k l : Nat} {t s : List Char} (ha : Hex.value? a = some i)
    (hb : Hex.value? b = some j) (hc : Hex.value? c = some k) (hd : Hex.value? d = some l)
    (hx : x.toNat = ((i * 16 + j) * 16 + k) * 16 + l) (h : Spells t s) :
    Spells ('\\' :: 'u' :: a :: b :: c :: d :: t) (x :: s)

/-- A string on one line, or a block that holds no three quotes before those at its end. -/
inductive Quoted : List Char → String → Prop where
  | line {t s : List Char} (h : Spells t s) : Quoted ('"' :: (t ++ ['"'])) (String.ofList s)
  | block {t : List Char} (h : ¬['"', '"', '"'] <:+: t ++ ['"', '"']) :
    Quoted ('"' :: '"' :: '"' :: (t ++ ['"', '"', '"'])) (String.ofList t)

theorem Quoted.head {t : List Char} {s : String} (h : Quoted t s) : ∃ w, t = '"' :: w := by
  cases h with
  | line h => exact ⟨_, rfl⟩
  | block h => exact ⟨_, rfl⟩

theorem escapeLetter?_of_mem {e x : Char} (h : (e, x) ∈ escapes) :
    e ≠ 'u' ∧ escapeLetter? e = some x := by
  simp only [escapes, List.mem_cons, List.not_mem_nil, or_false, Prod.mk.injEq] at h
  rcases h with ⟨rfl, rfl⟩ | ⟨rfl, rfl⟩ | ⟨rfl, rfl⟩ | ⟨rfl, rfl⟩ | ⟨rfl, rfl⟩ | ⟨rfl, rfl⟩ |
    ⟨rfl, rfl⟩ | ⟨rfl, rfl⟩ <;> exact ⟨by decide, by decide⟩

theorem codePoint?_of_digits {a b c d x : Char} {i j k l : Nat} (ha : Hex.value? a = some i)
    (hb : Hex.value? b = some j) (hc : Hex.value? c = some k) (hd : Hex.value? d = some l)
    (hx : x.toNat = ((i * 16 + j) * 16 + k) * 16 + l) : codePoint? a b c d = some x := by
  have hplus : a ≠ '+' := by
    rintro rfl
    have hv : Hex.value? '+' = none := by decide
    rw [hv] at ha
    cases ha
  have hnat : Hex.natL? [a, b, c, d] = some x.toNat := by
    rw [hx]
    simp [Hex.natL?, ha, hb, hc, hd]
  unfold codePoint? charOf?
  rw [if_neg hplus, hnat]
  simp only [Option.bind_some]
  have hvalid : x.toNat.isValidChar := x.valid
  rw [if_pos hvalid, Char.ofNat_toNat]

theorem stringOnto_spelled {t s : List Char} (h : Spells t s) (done rest : List Char) :
    stringOnto done (t ++ '"' :: rest) = .ok (done.reverse ++ s, rest) := by
  induction h generalizing done with
  | nil => rw [List.nil_append, stringOnto_quote, List.append_nil]
  | raw hc _ ih =>
    simp only [List.mem_cons, List.not_mem_nil, or_false, not_or] at hc
    rw [List.cons_append, stringOnto_plain hc.2.1 hc.1 hc.2.2, ih]
    simp
  | escape he _ ih =>
    obtain ⟨hu, hx⟩ := escapeLetter?_of_mem he
    simp only [List.cons_append]
    rw [stringOnto_escape hu hx, ih]
    simp
  | unicode ha hb hc hd hx _ ih =>
    simp only [List.cons_append]
    rw [stringOnto_codePoint (codePoint?_of_digits ha hb hc hd hx), ih]
    simp

/-- A spelling does not start with a quote. -/
theorem Spells.head_ne {t s u : List Char} (h : Spells t s) : t ≠ '"' :: u := by
  cases h with
  | nil => simp
  | raw hc _ =>
    simp only [List.mem_cons, not_or] at hc
    simp [hc.1]
  | escape _ _ => simp
  | unicode _ _ _ _ _ _ => simp

theorem blockOnto_spelled {t : List Char} (h : ¬['"', '"', '"'] <:+: t ++ ['"', '"'])
    (done rest : List Char) :
    blockOnto done (t ++ '"' :: '"' :: '"' :: rest) = .ok (done.reverse ++ t, rest) := by
  induction t generalizing done with
  | nil => rw [List.nil_append, blockOnto_close, List.append_nil]
  | cons c t ih =>
    rw [List.cons_append, blockOnto_cons, ih]
    · simp
    · intro hin
      exact h (hin.trans (List.infix_cons (List.infix_refl _)))
    · intro r hr
      apply h
      rcases t with _ | ⟨d, _ | ⟨e, t⟩⟩
      · cases hr
        exact List.infix_refl _
      · cases hr
        exact ⟨[], ['"'], rfl⟩
      · cases hr
        exact ⟨[], t ++ ['"', '"'], rfl⟩

/-- A string is read back from each of its spellings. Only an empty one has to be kept from a
quote behind it. -/
theorem string_spelled {t : List Char} {s : String} (h : Quoted t s) {rest : List Char}
    (hr : ∀ u, rest ≠ '"' :: u) : string (t ++ rest) = .ok (s, rest) := by
  cases h with
  | line h =>
    rename_i t s
    have hne : ∀ u, t ++ '"' :: rest ≠ '"' :: '"' :: u := by
      intro u hu
      rcases t with _ | ⟨c, t⟩
      · rw [List.nil_append] at hu
        exact hr u (List.cons.inj hu).2
      · exact h.head_ne (u := t) (by rw [(List.cons.inj hu).1])
    rw [List.cons_append, List.append_assoc, List.singleton_append, string_plain hne,
      stringOnto_spelled h]
    simp [Except.map]
  | block h =>
    simp only [List.cons_append, List.append_assoc, List.nil_append]
    rw [string_block, blockOnto_spelled h]
    simp [Except.map]

/-! ## Spellings of numbers -/

/-- The ways to write an integer: digits, with a minus sign in front of them if it is negative. -/
inductive Numeral : List Char → Int → Prop where
  | positive {ds : List Char} (hne : ds ≠ []) (hds : ∀ d ∈ ds, Decimal.isDigit d = true) :
    Numeral ds (Decimal.natOnto 0 ds)
  | negative {ds : List Char} (hne : ds ≠ []) (hds : ∀ d ∈ ds, Decimal.isDigit d = true) :
    Numeral ('-' :: ds) (-(Decimal.natOnto 0 ds))

/-- The integers of 64 bits. -/
def InRange (n : Int) : Prop := -9223372036854775808 ≤ n ∧ n ≤ 9223372036854775807

/-- No numeral starts with a plus sign. -/
theorem Numeral.head?_ne {t : List Char} {n : Int} (h : Numeral t n) : t.head? ≠ some '+' := by
  cases h with
  | positive _ hds =>
    intro hplus
    obtain ⟨ds, rfl⟩ := List.head?_eq_some_iff.mp hplus
    exact absurd (hds '+' List.mem_cons_self) (by decide)
  | negative _ _ => simp

/-- A text that does not start with a plus sign stands for an integer where it is a numeral for
it. -/
theorem intL?_eq_some_iff_numeral {t : List Char} {n : Int} (hplus : t.head? ≠ some '+') :
    Decimal.intL? t = some n ↔ Numeral t n := by
  rw [Decimal.intL?_eq_some_iff]
  have hminus : Decimal.isDigit '-' = false := by decide
  by_cases hneg : t.head? = some '-'
  · obtain ⟨ds, rfl⟩ := List.head?_eq_some_iff.mp hneg
    constructor
    · rintro ⟨hne, hds, rfl⟩
      exact .negative hne hds
    · intro h
      cases h with
      | positive _ hds =>
        have hfirst := hds '-' List.mem_cons_self
        rw [hminus] at hfirst
        cases hfirst
      | negative hne hds => exact ⟨hne, hds, rfl⟩
  · have hsign : Decimal.signL t = (false, t) := by
      unfold Decimal.signL
      split
      · exact absurd rfl hneg
      · exact absurd rfl hplus
      · rfl
    rw [hsign]
    constructor
    · rintro ⟨hne, hds, rfl⟩
      exact .positive hne hds
    · intro h
      cases h with
      | positive hne hds => exact ⟨hne, hds, rfl⟩
      | negative _ _ => exact absurd rfl hneg

/-- It is read as a word where that integer has 64 bits. -/
theorem int64L?_eq_some_iff_numeral {t : List Char} {n : Int} (hplus : t.head? ≠ some '+') :
    Decimal.int64L? t = some n ↔ Numeral t n ∧ InRange n := by
  rw [Decimal.int64L?_eq_some_iff, intL?_eq_some_iff_numeral hplus]
  rfl

/-- An integer has no point and no exponent. -/
theorem Numeral.not_isFloatMark {t : List Char} {n : Int} (h : Numeral t n) :
    ∀ c ∈ t, isFloatMark c = false := by
  have hdigit : ∀ c, Decimal.isDigit c = true → isFloatMark c = false := by
    intro c hc
    refine Bool.eq_false_iff.mpr fun hm => ?_
    simp only [isFloatMark, Bool.or_eq_true, decide_eq_true_eq] at hm
    rcases hm with (rfl | rfl) | rfl <;> cases hc
  cases h with
  | positive _ hds => exact fun c hc => hdigit c (hds c hc)
  | negative _ hds =>
    intro c hc
    rcases List.mem_cons.mp hc with rfl | hc
    · decide
    · exact hdigit c (hds c hc)

/-- The ways to write a number that is read: an integer of 64 bits, or with a point or an exponent
a finite double. -/
inductive Numeric : List Char → Number → Prop where
  | int {t : List Char} {n : Int} (ht : Numeral t n) (hn : InRange n) : Numeric t (.int n)
  | float {t : List Char} {d : Double} (hm : t.any isFloatMark = true)
    (hd : Decimal.doubleL? t = some d) : Numeric t (.float d)

/-! ## Tokens -/

/-- What a document is written with. -/
inductive Token where
  | mark (c : Char)
  | spread
  | name (n : String)
  | number (t : List Char)
  | string (t : List Char)
  deriving DecidableEq

/-- The punctuation of one character. -/
def marks : List Char :=
  ['!', '$', '&', '(', ')', ':', '=', '@', '[', ']', '\x7b', '|', '\x7d']

/-- A name starts with a letter or an underscore and goes on with those and digits. -/
def IsName (n : String) : Prop :=
  ∃ c cs, n.toList = c :: cs ∧ isNameStart c = true ∧ ∀ d ∈ cs, isNameChar d = true

instance (n : String) : Decidable (IsName n) :=
  match h : n.toList with
  | [] => .isFalse (by
      rintro ⟨c, cs, hn, -⟩
      rw [h] at hn
      cases hn)
  | c :: cs => decidable_of_iff (isNameStart c = true ∧ cs.all isNameChar = true) (by
      rw [List.all_eq_true]
      constructor
      · rintro ⟨hc, hcs⟩
        exact ⟨c, cs, h, hc, hcs⟩
      · rintro ⟨d, ds, hn, hd, hds⟩
        rw [h] at hn
        cases hn
        exact ⟨hd, hds⟩)

theorem isNameChar_of_start {c : Char} (h : isNameStart c = true) : isNameChar c = true := by
  unfold isNameChar
  rw [h]
  rfl

theorem IsName.nameChars {n : String} (h : IsName n) : ∀ d ∈ n.toList, isNameChar d = true := by
  obtain ⟨c, cs, hn, hc, hcs⟩ := h
  rw [hn]
  intro d hd
  rcases List.mem_cons.mp hd with rfl | hd
  · exact isNameChar_of_start hc
  · exact hcs d hd

/-- A number starts with a digit or a minus sign. -/
def IsNumber (t : List Char) : Prop :=
  ∃ c cs, t = c :: cs ∧ (c = '-' ∨ Decimal.isDigit c = true) ∧ ∀ d ∈ t, isNumberChar d = true

namespace Token

/-- The characters of a token. -/
def text : Token → List Char
  | mark c => [c]
  | spread => ['.', '.', '.']
  | name n => n.toList
  | number t => t
  | string t => t

/-- The token is one of the language. -/
def Fits : Token → Prop
  | mark c => c ∈ marks
  | spread => True
  | name n => IsName n
  | number t => IsNumber t
  | string t => ∃ s, Quoted t s

/-- Names, numbers and strings. -/
def IsWord : Token → Prop
  | mark _ | spread => False
  | name _ | number _ | string _ => True

/-- Two tokens that need a blank between them: words, and a number before a spread, whose points
would belong to it. -/
def Clashes (t u : Token) : Prop :=
  t.IsWord ∧ u.IsWord ∨ (∃ n, t = number n) ∧ u = spread

/-- The token does not go on in the text behind it. -/
def EndsBefore : Token → List Char → Prop
  | mark _, _ | spread, _ => True
  | name _, cs => ∀ c ∈ cs.head?, isNameChar c = false
  | number _, cs => ∀ c ∈ cs.head?, isNumberChar c = false
  | string _, cs => ∀ c ∈ cs.head?, c ≠ '"'

end Token

/-- Blanks. -/
def Gap (g : List Char) : Prop := ∀ c ∈ g, isIgnored c = true

/-- The ways to lay out tokens: blanks in front of each and at the end, and at least one between
two that clash. -/
inductive Laid : List Token → List Char → Prop where
  | nil {g : List Char} (hg : Gap g) : Laid [] g
  | cons {g : List Char} {t : Token} {ts : List Token} {cs : List Char} (hg : Gap g)
    (ht : t.Fits) (hc : ∀ u ∈ ts.head?, t.Clashes u → ∃ c ∈ cs.head?, isIgnored c = true)
    (h : Laid ts cs) : Laid (t :: ts) (g ++ (t.text ++ cs))

/-- Tokens with a space in front of each. -/
def spaced (ts : List Token) : List Char := ts.flatMap fun t => ' ' :: t.text

/-- Spaced tokens never clash. -/
theorem laid_spaced {ts : List Token} (h : ∀ t ∈ ts, t.Fits) : Laid ts (spaced ts) := by
  induction ts with
  | nil => exact .nil (by simp [spaced, Gap])
  | cons t ts ih =>
    have hts := ih fun u hu => h u (List.mem_cons_of_mem t hu)
    have hg : Gap [' '] := by
      intro c hc
      rw [List.mem_singleton.mp hc]
      decide
    refine .cons (g := [' ']) hg (h t List.mem_cons_self) (fun u hu _ => ?_) hts
    cases ts with
    | nil => cases hu
    | cons v vs => exact ⟨' ', rfl, by decide⟩

/-! ## First characters -/

theorem ne_of_eq_true {f : Char → Bool} {c d : Char} (hc : f c = true) (hd : f d = false) :
    c ≠ d := by
  rintro rfl
  rw [hc] at hd
  cases hd

/-- A blank belongs to no word. -/
theorem isIgnored_spec {c : Char} (h : isIgnored c = true) :
    isNameChar c = false ∧ isNumberChar c = false ∧ c ≠ '"' := by
  simp only [isIgnored, Bool.or_eq_true, decide_eq_true_eq] at h
  rcases h with ((((rfl | rfl) | rfl) | rfl) | rfl) | rfl <;> decide

theorem mark_spec {c : Char} (h : c ∈ marks) : isIgnored c = false ∧ c ≠ '#' ∧
    isNameChar c = false ∧ isNumberChar c = false ∧ c ≠ '"' ∧ c ≠ '.' := by
  have hall : (marks.all fun c => decide (isIgnored c = false ∧ c ≠ '#' ∧
      isNameChar c = false ∧ isNumberChar c = false ∧ c ≠ '"' ∧ c ≠ '.')) = true := by decide
  exact of_decide_eq_true (List.all_eq_true.mp hall c h)

theorem isNumberChar_of_start {c : Char} (h : c = '-' ∨ Decimal.isDigit c = true) :
    isNumberChar c = true := by
  unfold isNumberChar
  rcases h with rfl | h
  · decide
  · rw [h]
    rfl

/-- The first character of a token. -/
inductive Token.Starts : Token → Char → Prop where
  | mark {c : Char} (hc : c ∈ marks) : Starts (.mark c) c
  | spread : Starts .spread '.'
  | name {n : String} {c : Char} (hc : isNameStart c = true) : Starts (.name n) c
  | number {t : List Char} {c : Char} (hc : c = '-' ∨ Decimal.isDigit c = true) :
    Starts (.number t) c
  | string {t : List Char} : Starts (.string t) '"'

theorem Token.Fits.starts {t : Token} (h : t.Fits) : ∃ c w, t.text = c :: w ∧ t.Starts c := by
  cases t with
  | mark c => exact ⟨c, [], rfl, .mark h⟩
  | spread => exact ⟨'.', ['.', '.'], rfl, .spread⟩
  | name n =>
    obtain ⟨c, cs, hn, hc, -⟩ := h
    exact ⟨c, cs, hn, .name hc⟩
  | number t =>
    obtain ⟨c, cs, rfl, hc, -⟩ := h
    exact ⟨c, cs, rfl, .number hc⟩
  | string t =>
    obtain ⟨s, h⟩ := h
    obtain ⟨w, rfl⟩ := h.head
    exact ⟨'"', w, rfl, .string⟩

/-- A token starts with a character that counts. -/
theorem Token.Starts.counts {t : Token} {c : Char} (h : t.Starts c) :
    isIgnored c = false ∧ c ≠ '#' := by
  cases h with
  | mark hc => exact ⟨(mark_spec hc).1, (mark_spec hc).2.1⟩
  | spread => decide
  | name hc =>
    refine ⟨Bool.eq_false_iff.mpr fun hi => ?_, ne_of_eq_true hc (by decide)⟩
    have := (isNameChar_of_start hc).symm.trans (isIgnored_spec hi).1
    cases this
  | number hc =>
    have hn := isNumberChar_of_start hc
    refine ⟨Bool.eq_false_iff.mpr fun hi => ?_, ne_of_eq_true hn (by decide)⟩
    have := hn.symm.trans (isIgnored_spec hi).2.1
    cases this
  | string => decide

/-- Only a punctuation mark starts with it. -/
theorem Token.Starts.eq_mark {t : Token} {c : Char} (h : t.Starts c) (hc : c ∈ marks) :
    t = .mark c := by
  have hspec := mark_spec hc
  cases h with
  | mark _ => rfl
  | spread => exact absurd hc (by decide)
  | name h =>
    have := (isNameChar_of_start h).symm.trans hspec.2.2.1
    cases this
  | number h =>
    have := (isNumberChar_of_start h).symm.trans hspec.2.2.2.1
    cases this
  | string => exact absurd hc (by decide)

/-- Only a name starts with a letter. -/
theorem Token.Starts.not_isNameStart {t : Token} {c : Char} (h : t.Starts c)
    (hn : ∀ n, t ≠ .name n) : isNameStart c = false := by
  cases h with
  | mark hc =>
    refine Bool.eq_false_iff.mpr fun hs => ?_
    have := (isNameChar_of_start hs).symm.trans (mark_spec hc).2.2.1
    cases this
  | spread => decide
  | name _ => exact absurd rfl (hn _)
  | number hc =>
    rcases hc with rfl | hc
    · decide
    · refine Bool.eq_false_iff.mpr fun hs => ?_
      have := hc.symm.trans (isDigit_of_isNameStart hs)
      cases this
  | string => decide

/-! ## Texts that start with tokens -/

/-- The tokens stand at the start of a text, with blanks in front of each. What is behind them need
not be made of tokens. -/
inductive Leads : List Token → List Char → List Char → Prop where
  | nil {cs rest : List Char} (h : skipIgnored cs = skipIgnored rest) : Leads [] cs rest
  | cons {g : List Char} {t : Token} {ts : List Token} {cs rest : List Char} (hg : Gap g)
    (ht : t.Fits) (hend : t.EndsBefore cs) (h : Leads ts cs rest) :
    Leads (t :: ts) (g ++ (t.text ++ cs)) rest

section First

variable {ts : List Token} {cs rest : List Char}

theorem skipIgnored_gap {g : List Char} (hg : Gap g) (cs : List Char) :
    skipIgnored (g ++ cs) = skipIgnored cs := by
  induction g with
  | nil => rfl
  | cons c g ih =>
    have hc : isIgnored c = true := hg c List.mem_cons_self
    have hg' : Gap g := fun d hd => hg d (List.mem_cons_of_mem c hd)
    rw [← ih hg']
    simp [skipIgnored, skipFrom, hc]

theorem skipIgnored_text {t : Token} (ht : t.Fits) (cs : List Char) :
    skipIgnored (t.text ++ cs) = t.text ++ cs := by
  obtain ⟨c, w, hw, hs⟩ := ht.starts
  obtain ⟨hi, hh⟩ := hs.counts
  rw [hw]
  simp [skipIgnored, skipFrom, hi, hh]

/-- What follows a token does not belong to it. -/
theorem Laid.endsBefore {t : Token} (ht : t.Fits) (h : Laid ts cs)
    (hc : ∀ u ∈ ts.head?, t.Clashes u → ∃ c ∈ cs.head?, isIgnored c = true) :
    t.EndsBefore cs := by
  have hblank : ∀ c ∈ cs.head?, isIgnored c = true → t.EndsBefore cs := by
    intro c hcs hi
    obtain ⟨hname, hnumber, hquote⟩ := isIgnored_spec hi
    cases t with
    | mark _ => trivial
    | spread => trivial
    | name _ => intro d hd; rwa [Option.mem_unique hd hcs]
    | number _ => intro d hd; rwa [Option.mem_unique hd hcs]
    | string _ => intro d hd; rwa [Option.mem_unique hd hcs]
  cases h with
  | nil hg =>
    cases cs with
    | nil => cases t <;> simp [Token.EndsBefore]
    | cons c cs => exact hblank c rfl (hg c List.mem_cons_self)
  | cons hg hu hc' h =>
    rename_i g u us cs
    cases g with
    | cons c g => exact hblank c rfl (hg c List.mem_cons_self)
    | nil =>
      by_cases hclash : t.Clashes u
      · obtain ⟨c, hcs, hi⟩ := hc u rfl hclash
        exact hblank c hcs hi
      · obtain ⟨c, w, hw, hs⟩ := hu.starts
        rw [List.nil_append, hw]
        -- Behind a word there is punctuation, and behind a number no spread.
        cases t with
        | mark _ => trivial
        | spread => trivial
        | name n =>
          rintro d ⟨⟩
          cases hs with
          | mark hm => exact (mark_spec hm).2.2.1
          | spread => decide
          | name _ | number _ | string => exact absurd (Or.inl ⟨trivial, trivial⟩) hclash
        | number t =>
          rintro d ⟨⟩
          cases hs with
          | mark hm => exact (mark_spec hm).2.2.2.1
          | spread => exact absurd (Or.inr ⟨⟨t, rfl⟩, rfl⟩) hclash
          | name _ | number _ | string => exact absurd (Or.inl ⟨trivial, trivial⟩) hclash
        | string t =>
          rintro d ⟨⟩
          cases hs with
          | mark hm => exact (mark_spec hm).2.2.2.2.1
          | spread => decide
          | name _ | number _ | string => exact absurd (Or.inl ⟨trivial, trivial⟩) hclash

theorem Laid.eq_nil (h : Laid ts cs) (hcs : cs = []) : ts = [] := by
  cases h with
  | nil _ => rfl
  | cons _ ht _ _ =>
    obtain ⟨c, w, hw, -⟩ := ht.starts
    simp [hw] at hcs

/-- A layout may stand in front of any text in which its last token does not go on. -/
theorem Laid.leads (h : Laid ts cs) (rest : List Char)
    (hlast : ∀ t ∈ ts.getLast?, t.EndsBefore rest) : Leads ts (cs ++ rest) rest := by
  induction h with
  | nil hg => exact .nil (skipIgnored_gap hg rest)
  | cons hg ht hc h ih =>
    rename_i g t ts cs
    rw [List.append_assoc, List.append_assoc]
    refine .cons hg ht ?_ (ih ?_)
    · cases cs with
      | nil =>
        obtain rfl := h.eq_nil rfl
        exact hlast t rfl
      | cons c cs =>
        have hend := h.endsBefore ht hc
        cases t <;> exact hend
    · intro u hu
      cases ts with
      | nil => cases hu
      | cons v vs => exact hlast u (by rwa [List.getLast?_cons_cons])

/-- Behind a punctuation mark any text may stand. -/
theorem Laid.leads_mark {c : Char} (h : Laid (ts ++ [.mark c]) cs) (rest : List Char) :
    Leads (ts ++ [.mark c]) (cs ++ rest) rest := by
  refine h.leads rest fun t ht => ?_
  rw [List.getLast?_concat] at ht
  obtain rfl := Option.some.inj ht
  trivial

/-- A layout that is the whole text. -/
theorem Laid.leads_nil (h : Laid ts cs) : Leads ts cs [] := by
  have hleads := h.leads [] fun t _ => by cases t <;> simp [Token.EndsBefore]
  rwa [List.append_nil] at hleads

/-! ## Reading the first token -/

/-- Blanks in front do not matter. -/
theorem Leads.skip (h : Leads ts cs rest) : Leads ts (skipIgnored cs) rest := by
  cases h with
  | nil h => exact .nil (by rw [skipIgnored_idem, h])
  | cons hg ht hend h =>
    rw [skipIgnored_gap hg, skipIgnored_text ht]
    exact .cons (g := []) (by simp [Gap]) ht hend h

/-- In front of the first token there are blanks, and it ends where it should. -/
theorem Leads.split {t : Token} (h : Leads (t :: ts) cs rest) :
    ∃ g cs₁, cs = g ++ (t.text ++ cs₁) ∧ Gap g ∧ t.Fits ∧ t.EndsBefore cs₁ ∧
      Leads ts cs₁ rest := by
  cases h with
  | cons hg ht hend h => exact ⟨_, _, rfl, hg, ht, hend, h⟩

theorem Leads.uncons {t : Token} (h : Leads (t :: ts) cs rest) :
    ∃ cs₁, skipIgnored cs = t.text ++ cs₁ ∧ t.Fits ∧ t.EndsBefore cs₁ ∧ Leads ts cs₁ rest := by
  obtain ⟨g, cs₁, rfl, hg, ht, hend, hcs₁⟩ := h.split
  refine ⟨cs₁, ?_, ht, hend, hcs₁⟩
  rw [skipIgnored_gap hg, skipIgnored_text ht]

theorem Leads.mark {c : Char} (h : Leads (.mark c :: ts) cs rest) :
    ∃ cs₁, skipIgnored cs = c :: cs₁ ∧ Leads ts cs₁ rest := by
  obtain ⟨cs₁, hs, -, -, hcs₁⟩ := h.uncons
  exact ⟨cs₁, hs, hcs₁⟩

theorem Leads.eat? {c : Char} (h : Leads (.mark c :: ts) cs rest) :
    ∃ cs₁, eat? c cs = some cs₁ ∧ Leads ts cs₁ rest := by
  obtain ⟨cs₁, hs, hcs₁⟩ := h.mark
  exact ⟨cs₁, by rw [eat?_of_skipIgnored hs, if_pos rfl], hcs₁⟩

/-- Another token is not taken for a punctuation mark. -/
theorem Leads.eat?_none {t : Token} {c : Char} (h : Leads (t :: ts) cs rest) (hc : c ∈ marks)
    (hne : t ≠ .mark c) : Graphql.eat? c cs = none := by
  obtain ⟨cs₁, hs, ht, -, -⟩ := h.uncons
  obtain ⟨d, w, hw, hd⟩ := ht.starts
  rw [hw] at hs
  rw [eat?_of_skipIgnored hs, if_neg]
  rintro rfl
  exact hne (hd.eq_mark hc)

theorem Leads.expect {c : Char} (h : Leads (.mark c :: ts) cs rest) :
    ∃ cs₁, Graphql.expect c cs = .ok cs₁ ∧ Leads ts cs₁ rest := by
  obtain ⟨cs₁, he, hcs₁⟩ := h.eat?
  refine ⟨cs₁, ?_, hcs₁⟩
  unfold Graphql.expect
  rw [he]

/-- A run of characters ends where the next one does not belong to it. -/
theorem takeWhile_append_of_all {f : Char → Bool} {w rest : List Char}
    (hw : ∀ c ∈ w, f c = true) (hr : ∀ c ∈ rest.head?, f c = false) :
    (w ++ rest).takeWhile f = w ∧ (w ++ rest).dropWhile f = rest := by
  rw [List.takeWhile_append_of_pos hw, List.dropWhile_append_of_pos hw]
  cases rest with
  | nil => simp
  | cons c rest => simp [hr c rfl]

/-- A name starts where the blanks in front of it end. -/
theorem Leads.name_split {n : String} (h : Leads (.name n :: ts) cs rest) :
    ∃ c w cs₁, n.toList = c :: w ∧ skipIgnored cs = c :: (w ++ cs₁) ∧ isNameStart c = true ∧
      (∀ d ∈ w, isNameChar d = true) ∧ (Token.name n).EndsBefore cs₁ ∧ Leads ts cs₁ rest := by
  obtain ⟨cs₁, hs, ⟨c, w, hn, hc, hw⟩, hend, hcs₁⟩ := h.uncons
  refine ⟨c, w, cs₁, hn, ?_, hc, hw, hend, hcs₁⟩
  rw [hs, ← List.cons_append, ← hn]
  rfl

theorem Leads.name_head {n : String} (h : Leads (.name n :: ts) cs rest) :
    ∃ c w, skipIgnored cs = c :: w ∧ isNameStart c = true := by
  obtain ⟨c, w, cs₁, -, hs, hc, -⟩ := h.name_split
  exact ⟨c, w ++ cs₁, hs, hc⟩

theorem Leads.name {n : String} (h : Leads (.name n :: ts) cs rest) :
    ∃ cs₁, Graphql.name cs = .ok (n, cs₁) ∧ Leads ts cs₁ rest := by
  obtain ⟨c, w, cs₁, hn, hs, hc, hw, hend, hcs₁⟩ := h.name_split
  refine ⟨cs₁, ?_, hcs₁⟩
  obtain ⟨htake, hdrop⟩ := takeWhile_append_of_all hw hend
  rw [name_of_skipIgnored hs, if_pos hc, htake, hdrop, ← hn, String.ofList_toList]

/-- The first characters of a number, and the number read from there. -/
theorem Leads.number {t : List Char} {n : Number} (h : Leads (.number t :: ts) cs rest)
    (ht : Numeric t n) : ∃ c w cs₁, skipIgnored cs = c :: w ∧
      (c = '-' ∨ Decimal.isDigit c = true) ∧ Graphql.number (c :: w) = .ok (n, cs₁) ∧
        Leads ts cs₁ rest := by
  obtain ⟨cs₁, hs, ⟨c, w, rfl, hc, hw⟩, hend, hcs₁⟩ := h.uncons
  refine ⟨c, w ++ cs₁, cs₁, hs, hc, ?_, hcs₁⟩
  obtain ⟨htake, hdrop⟩ := takeWhile_append_of_all hw hend
  show Graphql.number ((c :: w) ++ cs₁) = _
  unfold Graphql.number
  rw [htake, hdrop]
  cases ht with
  | int ht hn =>
    have hmark : (c :: w).any isFloatMark = false :=
      List.any_eq_false.mpr fun d hd => Bool.eq_false_iff.mp (ht.not_isFloatMark d hd)
    simp only [hmark]
    rw [(int64L?_eq_some_iff_numeral ht.head?_ne).mpr ⟨ht, hn⟩]
    rfl
  | float hm hd =>
    simp only [hm, if_true]
    rw [hd]
    rfl

/-- A string is read up to its end. -/
theorem string_of_endsBefore {t cs₁ : List Char} {s : String} (ht : Quoted t s)
    (hend : (Token.string t).EndsBefore cs₁) : Graphql.string (t ++ cs₁) = .ok (s, cs₁) := by
  refine string_spelled ht fun u hu => ?_
  exact hend '"' (by rw [hu]; rfl) rfl

/-- The first characters of a string, and the string read from there. -/
theorem Leads.string {t : List Char} {s : String} (h : Leads (.string t :: ts) cs rest)
    (ht : Quoted t s) : ∃ w cs₁, skipIgnored cs = '"' :: w ∧
      Graphql.string ('"' :: w) = .ok (s, cs₁) ∧ Leads ts cs₁ rest := by
  obtain ⟨cs₁, hs, -, hend, hcs₁⟩ := h.uncons
  have hread := string_of_endsBefore ht hend
  obtain ⟨w, rfl⟩ := ht.head
  exact ⟨w ++ cs₁, cs₁, hs, hread, hcs₁⟩

end First

end Intranet.Graphql
