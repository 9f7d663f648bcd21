import Intranet.Proofs.Graphql.Layout

/-!
# Which strings are read

A string on one line is read exactly where it is written by the rules of `Spells`, with one
exception: a number behind a backslash and the letter `u` may have a plus sign in place of its
first digit. `Taken` is what is read, and it counts those signs.

Main results:

* `stringOnto_taken`, `taken_of_stringOnto`: what is taken is read, and nothing else;
* `string_exact_iff`: the rules of the language describe the reading of a string, unless a sign
  stands for a digit in it;
* `string_signed`: a string that the rules do not allow and that is read.
-/

namespace Intranet.Graphql

/-! ## Code points -/

theorem charOf?_eq_some {n : Nat} {x : Char} : charOf? n = some x ↔ x.toNat = n := by
  unfold charOf?
  constructor
  · intro h
    split at h
    · next hvalid =>
      cases h
      rw [Char.ofNat, dif_pos hvalid]
      rfl
    · cases h
  · rintro rfl
    have hvalid : x.toNat.isValidChar := x.valid
    rw [if_pos hvalid, Char.ofNat_toNat]

theorem natL?_three {b c d : Char} {n : Nat} : Hex.natL? [b, c, d] = some n ↔
    ∃ j k l, Hex.value? b = some j ∧ Hex.value? c = some k ∧ Hex.value? d = some l ∧
      n = (j * 16 + k) * 16 + l := by
  simp only [Hex.natL?, List.foldlM_cons, List.foldlM_nil, Option.pure_def, Option.bind_eq_bind,
    Option.bind_eq_some_iff, Option.map_eq_some_iff, Option.some.injEq]
  constructor
  · rintro ⟨_, ⟨j, hj, rfl⟩, _, ⟨k, hk, rfl⟩, _, ⟨l, hl, rfl⟩, rfl⟩
    exact ⟨j, k, l, hj, hk, hl, by simp⟩
  · rintro ⟨j, k, l, hj, hk, hl, rfl⟩
    exact ⟨_, ⟨j, hj, rfl⟩, _, ⟨k, hk, rfl⟩, _, ⟨l, hl, rfl⟩, by simp⟩

theorem natL?_four {a b c d : Char} {n : Nat} : Hex.natL? [a, b, c, d] = some n ↔
    ∃ i j k l, Hex.value? a = some i ∧ Hex.value? b = some j ∧ Hex.value? c = some k ∧
      Hex.value? d = some l ∧ n = ((i * 16 + j) * 16 + k) * 16 + l := by
  simp only [Hex.natL?, List.foldlM_cons, List.foldlM_nil, Option.pure_def, Option.bind_eq_bind,
    Option.bind_eq_some_iff, Option.map_eq_some_iff, Option.some.injEq]
  constructor
  · rintro ⟨_, ⟨i, hi, rfl⟩, _, ⟨j, hj, rfl⟩, _, ⟨k, hk, rfl⟩, _, ⟨l, hl, rfl⟩, rfl⟩
    exact ⟨i, j, k, l, hi, hj, hk, hl, by simp⟩
  · rintro ⟨i, j, k, l, hi, hj, hk, hl, rfl⟩
    exact ⟨_, ⟨i, hi, rfl⟩, _, ⟨j, hj, rfl⟩, _, ⟨k, hk, rfl⟩, _, ⟨l, hl, rfl⟩, by simp⟩

theorem codePoint?_plus (b c d : Char) :
    codePoint? '+' b c d = (Hex.natL? [b, c, d]).bind charOf? := by
  simp [codePoint?]

theorem codePoint?_of_ne {a : Char} (ha : a ≠ '+') (b c d : Char) :
    codePoint? a b c d = (Hex.natL? [a, b, c, d]).bind charOf? := by
  simp [codePoint?, ha]

theorem mem_escapes_of_escapeLetter? {e x : Char} (h : escapeLetter? e = some x) :
    (e, x) ∈ escapes := by
  unfold escapeLetter? at h
  split at h
  · next he =>
    cases h
    rcases he with rfl | rfl | rfl <;> decide
  · repeat' split at h
    all_goals
      subst_vars
      cases h
    all_goals decide

/-! ## What is taken -/

/-- The ways to write characters between quotes that are read, with the count of the numbers that
have a plus sign in place of their first digit. -/
inductive Taken : Nat → List Char → List Char → Prop where
  | nil : Taken 0 [] []
  | raw {n : Nat} {c : Char} {t s : List Char} (hc : c ∉ ['"', '\\', '\n']) (h : Taken n t s) :
    Taken n (c :: t) (c :: s)
  | escape {n : Nat} {e x : Char} {t s : List Char} (he : (e, x) ∈ escapes) (h : Taken n t s) :
    Taken n ('\\' :: e :: t) (x :: s)
  | unicode {n : Nat} {a b c d x : Char} {i j k l : Nat} {t s : List Char}
    (ha : Hex.value? a = some i) (hb : Hex.value? b = some j) (hc : Hex.value? c = some k)
    (hd : Hex.value? d = some l) (hx : x.toNat = ((i * 16 + j) * 16 + k) * 16 + l)
    (h : Taken n t s) : Taken n ('\\' :: 'u' :: a :: b :: c :: d :: t) (x :: s)
  | signed {n : Nat} {b c d x : Char} {j k l : Nat} {t s : List Char} (hb : Hex.value? b = some j)
    (hc : Hex.value? c = some k) (hd : Hex.value? d = some l)
    (hx : x.toNat = (j * 16 + k) * 16 + l) (h : Taken n t s) :
    Taken (n + 1) ('\\' :: 'u' :: '+' :: b :: c :: d :: t) (x :: s)

/-- Without signs it is the rules of the language. -/
theorem taken_zero_iff {t s : List Char} : Taken 0 t s ↔ Spells t s := by
  constructor
  · intro h
    generalize hn : 0 = n at h
    induction h with
    | nil => exact .nil
    | raw hc _ ih => exact .raw hc (ih hn)
    | escape he _ ih => exact .escape he (ih hn)
    | unicode ha hb hc hd hx _ ih => exact .unicode ha hb hc hd hx (ih hn)
    | signed _ _ _ _ _ _ => cases hn
  · intro h
    induction h with
    | nil => exact .nil
    | raw hc _ ih => exact .raw hc ih
    | escape he _ ih => exact .escape he ih
    | unicode ha hb hc hd hx _ ih => exact .unicode ha hb hc hd hx ih

theorem not_mem_escapes_u (x : Char) : ('u', x) ∉ escapes := by
  intro h
  exact (escapeLetter?_of_mem h).1 rfl

/-- How many signs there are is told by what is written. -/
theorem Taken.count_unique {n m : Nat} {t s s' : List Char} (h : Taken n t s) (h' : Taken m t s') :
    n = m := by
  have hplus : Hex.value? '+' = none := by decide
  induction h generalizing m s' with
  | nil => cases h'; rfl
  | raw hc _ ih =>
    cases h' with
    | raw _ h' => exact ih h'
    | escape _ _ | unicode _ _ _ _ _ _ | signed _ _ _ _ _ => simp at hc
  | escape he _ ih =>
    cases h' with
    | raw hc _ => simp at hc
    | escape _ h' => exact ih h'
    | unicode _ _ _ _ _ _ | signed _ _ _ _ _ => exact absurd he (not_mem_escapes_u _)
  | unicode ha _ _ _ _ _ ih =>
    cases h' with
    | raw hc _ => simp at hc
    | escape he _ => exact absurd he (not_mem_escapes_u _)
    | unicode _ _ _ _ _ h' => exact ih h'
    | signed _ _ _ _ _ =>
      rw [hplus] at ha
      cases ha
  | signed _ _ _ _ _ ih =>
    cases h' with
    | raw hc _ => simp at hc
    | escape he _ => exact absurd he (not_mem_escapes_u _)
    | unicode ha _ _ _ _ _ =>
      rw [hplus] at ha
      cases ha
    | signed _ _ _ _ h' => rw [ih h']

/-! ## Reading -/

/-- What is taken is read up to the quote behind it. -/
theorem stringOnto_taken {n : Nat} {t s : List Char} (h : Taken n t s) (done rest : List Char) :
    stringOnto done (t ++ '"' :: rest) = .ok (done.reverse ++ s, rest) := by
  induction h generalizing done with
  | nil => rw [List.nil_append, stringOnto_quote, List.append_nil]
  | raw hc _ ih =>
    simp only [List.mem_cons, List.not_mem_nil, or_false, not_or] at hc
    rw [List.cons_append, stringOnto_plain hc.2.1 hc.1 hc.2.2, ih]
    simp
  | escape he _ ih =>
    obtain ⟨hu, hx⟩ := escapeLetter?_of_mem he
    simp only [List.cons_append]
    rw [stringOnto_escape hu hx, ih]
    simp
  | unicode ha hb hc hd hx _ ih =>
    simp only [List.cons_append]
    rw [stringOnto_codePoint (codePoint?_of_digits ha hb hc hd hx), ih]
    simp
  | @signed n b c d x j k l t s hb hc hd hx _ ih =>
    have hpoint : codePoint? '+' b c d = some x := by
      rw [codePoint?_plus, natL?_three.mpr ⟨j, k, l, hb, hc, hd, rfl⟩]
      exact charOf?_eq_some.mpr hx
    simp only [List.cons_append]
    rw [stringOnto_codePoint hpoint, ih]
    simp

/-- A character with a number is taken, with a sign or without. -/
theorem taken_of_codePoint? {a b c d x : Char} (hx : codePoint? a b c d = some x) {n : Nat}
    {t s : List Char} (h : Taken n t s) :
    ∃ m, Taken m ('\\' :: 'u' :: a :: b :: c :: d :: t) (x :: s) := by
  by_cases ha : a = '+'
  · subst ha
    rw [codePoint?_plus] at hx
    obtain ⟨v, hv, hx⟩ := Option.bind_eq_some_iff.mp hx
    obtain ⟨j, k, l, hb, hc, hd, rfl⟩ := natL?_three.mp hv
    exact ⟨n + 1, .signed hb hc hd (charOf?_eq_some.mp hx) h⟩
  · rw [codePoint?_of_ne ha] at hx
    obtain ⟨v, hv, hx⟩ := Option.bind_eq_some_iff.mp hx
    obtain ⟨i, j, k, l, ha, hb, hc, hd, rfl⟩ := natL?_four.mp hv
    exact ⟨n, .unicode ha hb hc hd (charOf?_eq_some.mp hx) h⟩

/-- Nothing else is read. -/
theorem taken_of_stringOnto {done cs w rest : List Char}
    (h : stringOnto done cs = .ok (w, rest)) :
    ∃ n t s, cs = t ++ '"' :: rest ∧ Taken n t s ∧ w = done.reverse ++ s := by
  fun_induction stringOnto done cs with
  | case1 | case2 | case4 | case5 | case7 | case9 => cases h
  | case3 done a b c d cs x hx ih =>
    obtain ⟨n, t, s, rfl, ht, rfl⟩ := ih h
    obtain ⟨m, hm⟩ := taken_of_codePoint? hx ht
    exact ⟨m, _, _, rfl, hm, by simp⟩
  | case6 done e cs _ he x hx ih =>
    obtain ⟨n, t, s, rfl, ht, rfl⟩ := ih h
    exact ⟨n, _, _, rfl, .escape (mem_escapes_of_escapeLetter? hx) ht, by simp⟩
  | case8 done cs =>
    cases h
    exact ⟨0, [], [], rfl, .nil, by simp⟩
  | case10 done c cs hb _ hb' hq hn ih =>
    have hc : c ≠ '\\' := by
      rintro rfl
      cases cs with
      | nil => exact hb rfl rfl
      | cons e cs => exact hb' e cs rfl rfl
    obtain ⟨n, t, s, rfl, ht, rfl⟩ := ih h
    exact ⟨n, _, _, rfl, .raw (by simp [hq, hc, hn]) ht, by simp⟩

/-- A string on one line is read exactly where what stands before a quote is taken. -/
theorem string_eq_ok_iff {cs : List Char} (hb : ∀ rest, cs ≠ '"' :: '"' :: rest) (s : String)
    (rest : List Char) : string ('"' :: cs) = .ok (s, rest) ↔
      ∃ n t, cs = t ++ '"' :: rest ∧ Taken n t s.toList := by
  rw [string_plain hb]
  constructor
  · intro h
    cases hr : stringOnto [] cs with
    | error e =>
      rw [hr] at h
      cases h
    | ok r =>
      obtain ⟨w, rest'⟩ := r
      rw [hr] at h
      cases h
      obtain ⟨n, t, u, ht, htaken, rfl⟩ := taken_of_stringOnto hr
      refine ⟨n, t, ht, ?_⟩
      simpa using htaken
  · rintro ⟨n, t, rfl, ht⟩
    rw [stringOnto_taken ht]
    simp [Except.map]

/-- **Strings are decoded exactly, but for signs.** A string on one line is read exactly where what
stands before some quote is taken, as the characters that are taken, and the text behind that quote
is left. Its reading is what the rules of the language say, for every result, if and only if no
plus sign is taken for the first digit of a number in it. -/
theorem string_exact_iff (cs : List Char) (hb : ∀ rest, cs ≠ '"' :: '"' :: rest) :
    (∀ s rest, string ('"' :: cs) = .ok (s, rest) ↔
      ∃ n t, cs = t ++ '"' :: rest ∧ Taken n t s.toList) ∧
    ((∀ s rest, string ('"' :: cs) = .ok (s, rest) ↔
        ∃ t, cs = t ++ '"' :: rest ∧ Spells t s.toList) ↔
      ∀ n t s rest, cs = t ++ '"' :: rest → ¬Taken (n + 1) t s) := by
  have hread := string_eq_ok_iff hb
  refine ⟨hread, ?_⟩
  constructor
  · intro hrules n t s rest ht htaken
    have hok : string ('"' :: cs) = .ok (String.ofList s, rest) := by
      apply (hread _ _).mpr
      exact ⟨n + 1, t, ht, by simpa using htaken⟩
    obtain ⟨t', ht', hspells⟩ := (hrules _ _).mp hok
    obtain rfl : t = t' := List.append_cancel_right (ht.symm.trans ht')
    have hcount := htaken.count_unique (taken_zero_iff.mpr hspells)
    cases hcount
  · intro hsigns s rest
    rw [hread]
    constructor
    · rintro ⟨n, t, ht, htaken⟩
      cases n with
      | zero => exact ⟨t, ht, taken_zero_iff.mp htaken⟩
      | succ n => exact absurd htaken (hsigns n t _ rest ht)
    · rintro ⟨t, ht, hspells⟩
      exact ⟨0, t, ht, taken_zero_iff.mpr hspells⟩

/-- An escaped quote and a number with letters for digits. -/
theorem string_exact_escaped :
    (∀ rest, "\\\"\\u00eF\" x".toList ≠ '"' :: '"' :: rest) ∧
      string ('"' :: "\\\"\\u00eF\" x".toList) = .ok ("\"ï", " x".toList) := by
  have hb : ∀ rest, "\\\"\\u00eF\" x".toList ≠ '"' :: '"' :: rest := by
    intro rest h
    simp at h
  refine ⟨hb, ((string_exact_iff _ hb).1 _ _).mpr ⟨0, "\\\"\\u00eF".toList, rfl, ?_⟩⟩
  have hnumber : Taken 0 "\\u00eF".toList "ï".toList :=
    .unicode (i := 0) (j := 0) (k := 14) (l := 15) (by decide) (by decide) (by decide) (by decide)
      (by decide) .nil
  exact .escape (by decide) hnumber

/-- A plus sign is no hexadecimal digit, and yet a number that starts with one is read. -/
theorem string_signed : ¬∀ cs : List Char, (∀ rest, cs ≠ '"' :: '"' :: rest) → ∀ s rest,
    string ('"' :: cs) = .ok (s, rest) ↔
      ∃ t, cs = t ++ '"' :: rest ∧ Spells t s.toList := by
  intro h
  have hb : ∀ rest, "\\u+041\"".toList ≠ '"' :: '"' :: rest := by
    intro rest h
    simp at h
  have htaken : Taken 1 "\\u+041".toList "A".toList :=
    .signed (j := 0) (k := 4) (l := 1) (by decide) (by decide) (by decide) (by decide) .nil
  exact (string_exact_iff _ hb).2.mp (h _ hb) 0 _ _ [] rfl htaken

end Intranet.Graphql
