import Intranet.Proofs.Graphql.Bytes
import Mathlib.Data.List.TakeWhile

/-!
# Integers in a document

A number is a run of digits, signs, points and exponent letters, and it is taken or refused as a
whole. The reader makes a word of 64 bits out of a run without point and exponent, digit by digit.
What it gives is the integer that the digits stand for in decimal, and it gives nothing where 64
bits do not hold that integer.

* `IsRun` — the run that a text starts with;
* `ReadsInteger` — a reader gives the integer that a run is a numeral for, and refuses all other
  runs;
* `readsInteger_number` — the reader of characters does;
* `Bytewise.value_eq_number` — a value that starts with a digit or a minus sign is a number;
* `number_exact` — which integers are read from the bytes of a text, at every place in it.
-/

namespace Intranet.Graphql

open Json (bytesOf)

/-! ## Runs -/

/-- The longest run of number characters that a text starts with, and what is left behind it. -/
structure IsRun (t cs rest : List Char) : Prop where
  split : cs = t ++ rest
  chars : ∀ c ∈ t, isNumberChar c = true
  ends : ∀ c ∈ rest.head?, isNumberChar c = false

theorem exists_isRun (cs : List Char) : ∃ t rest, IsRun t cs rest := by
  refine ⟨cs.takeWhile isNumberChar, cs.dropWhile isNumberChar, ?_, ?_, ?_⟩
  · exact List.takeWhile_append_dropWhile.symm
  · exact fun c hc => List.mem_takeWhile_imp hc
  · intro c hc
    have hhead := List.head?_dropWhile_not isNumberChar cs
    rw [hc] at hhead
    exact hhead

/-- A text has one run. -/
theorem IsRun.unique {t t' cs rest rest' : List Char} (h : IsRun t cs rest)
    (h' : IsRun t' cs rest') : t = t' ∧ rest = rest' := by
  obtain ⟨htake, hdrop⟩ := takeWhile_append_of_all h.chars h.ends
  obtain ⟨htake', hdrop'⟩ := takeWhile_append_of_all h'.chars h'.ends
  rw [← h.split] at htake hdrop
  rw [← h'.split] at htake' hdrop'
  exact ⟨htake.symm.trans htake', hdrop.symm.trans hdrop'⟩

section Runs

variable {t cs rest left : List Char} {c : Char} {x : Number} {m : Malformed}

/-- A run starts like the text. -/
theorem IsRun.head?_eq (h : IsRun t (c :: cs) rest) (hc : isNumberChar c = true) :
    t.head? = some c := by
  cases t with
  | nil =>
    have hends := h.ends c (by rw [← List.nil_append rest, ← h.split]; rfl)
    rw [hc] at hends
    cases hends
  | cons d t =>
    have hsplit := h.split
    rw [List.cons_append] at hsplit
    rw [(List.cons.inj hsplit).1]
    rfl

/-- What becomes of a text is decided by its run. -/
theorem IsRun.number_eq (h : IsRun t cs rest) :
    number cs =
      match if t.any isFloatMark then (Decimal.doubleL? t).map Number.float
        else (Decimal.int64L? t).map Number.int with
      | some n => .ok (n, rest)
      | none => .error (.badNumber (String.ofList t)) := by
  obtain ⟨htake, hdrop⟩ := takeWhile_append_of_all h.chars h.ends
  rewrite [h.split, number, htake, hdrop]
  rfl

theorem IsRun.left_eq (h : IsRun t cs rest) (hread : number cs = .ok (x, left)) : left = rest := by
  rw [h.number_eq] at hread
  split at hread <;> cases hread
  rfl

end Runs

/-! ## Integers -/

/-- A reading of a run: it gives the integer that the run is a numeral for, if 64 bits hold it, and
goes on behind the run. Every other run is refused. -/
structure ReadsInteger {ε α β : Type} (t : List Char) (value : Int → α) (behind : β) (refusal : ε)
    (read : Except ε (α × β)) : Prop where
  accepts : ∀ a b, read = .ok (a, b) ↔ ∃ n, Numeral t n ∧ InRange n ∧ a = value n ∧ b = behind
  refuses : (¬∃ n, Numeral t n ∧ InRange n) → read = .error refusal

/-- A run without point and exponent is read so. A plus sign in front would be read over, and is no
part of a numeral. -/
theorem readsInteger_number {t cs rest : List Char} (h : IsRun t cs rest)
    (hplus : t.head? ≠ some '+') (hplain : ∀ d ∈ t, isFloatMark d = false) :
    ReadsInteger t Number.int rest (.badNumber (String.ofList t)) (number cs) := by
  have hmark : t.any isFloatMark = false :=
    List.any_eq_false.mpr fun d hd => Bool.eq_false_iff.mp (hplain d hd)
  have hnumeral (n : Int) : Decimal.int64L? t = some n ↔ Numeral t n ∧ InRange n :=
    int64L?_eq_some_iff_numeral hplus
  rw [h.number_eq, hmark, if_neg Bool.false_ne_true]
  cases hword : Decimal.int64L? t with
  | none =>
    have hnone (n : Int) : ¬(Numeral t n ∧ InRange n) := by
      rw [← hnumeral, hword]
      nofun
    refine ⟨fun x left => ⟨nofun, ?_⟩, fun _ => rfl⟩
    rintro ⟨n, ht, hn, -⟩
    exact absurd ⟨ht, hn⟩ (hnone n)
  | some n =>
    obtain ⟨ht, hn⟩ := (hnumeral n).mp hword
    refine ⟨fun x left => ⟨fun hok => ?_, ?_⟩, fun hnone => absurd ⟨n, ht, hn⟩ hnone⟩
    · cases hok
      exact ⟨n, ht, hn, rfl, rfl⟩
    · rintro ⟨n', ht', hn', rfl, rfl⟩
      have hsame := (hnumeral n').mpr ⟨ht', hn'⟩
      rw [hword] at hsame
      cases hsame
      rfl

/-! ## Bytes -/

namespace Bytewise

variable {all before t cs rest : List Char} {c : Char} {pos : Nat} {x : Number} {m : Malformed}

/-- A value that starts with a digit or a minus sign is a number, however deep it stands. -/
theorem value_eq_number (hat : At all (c :: cs) pos) (hc : c = '-' ∨ Decimal.isDigit c = true)
    (given : Members) (levels depth : Nat) :
    value given (levels + 1) depth (bytesOf all) pos = number (bytesOf all) pos := by
  have hstarts : (Token.number []).Starts c := .number hc
  have hhere : Graphql.skipIgnored (c :: cs) = c :: cs := by
    rw [Graphql.skipIgnored, skipFrom, if_neg (by simp [hstarts.counts.1]),
      if_neg hstarts.counts.2]
  obtain ⟨pos', hskip, hat'⟩ := skipIgnored_agrees hat
  rw [hhere] at hat'
  obtain rfl := hat.unique hat'
  obtain ⟨b, hget, hlatin, -⟩ := hat.byte
  rw [shown_of_ascii (isAscii_isNumberChar c (isNumberChar_of_start hc))] at hlatin
  have hmark (d : Char) (hd : d ∈ marks) : c ≠ d := by
    rintro rfl
    cases hstarts.eq_mark hd
  have hopens : latin b ∉ ['[', '\x7b'] := by
    rw [hlatin]
    simp [hmark '[' (by decide), hmark '\x7b' (by decide)]
  have hquote : c ≠ '"' := by
    rintro rfl
    revert hc
    decide
  rw [value, place_bind, bind_ok hskip, peek_bind, hget]
  dsimp only
  rw [if_neg fun hboth => hopens hboth.2, valueFrom, hlatin, if_neg (hmark '$' (by decide)),
    if_neg hquote, if_neg (hmark '[' (by decide)), if_neg (hmark '\x7b' (by decide)), if_pos hc]

theorem number_of_error (hread : Graphql.number cs = .error m) :
    number (bytesOf (before ++ cs)) (bytesOf before).length = .error (told m) := by
  apply number_agrees.eq_error
  rw [hread]
  rfl

/-- The bytes of a number are read as its characters are, up to the place behind its run. -/
theorem number_eq_ok_iff (h : IsRun t cs rest) {v : Json} :
    number (bytesOf (before ++ cs)) (bytesOf before).length = .ok (v, pos) ↔
      ∃ x, Graphql.number cs = .ok (x, rest) ∧ v = numberValue x ∧
        pos = (bytesOf (before ++ t)).length := by
  obtain rfl := h.split
  have hok {x : Number} (hread : Graphql.number (t ++ rest) = .ok (x, rest)) :
      number (bytesOf (before ++ (t ++ rest))) (bytesOf before).length =
        .ok (numberValue x, (bytesOf (before ++ t)).length) := by
    apply number_agrees.eq_ok
    rw [hread]
    rfl
  constructor
  · intro hread
    cases hnumber : Graphql.number (t ++ rest) with
    | error m =>
      rw [number_of_error hnumber] at hread
      cases hread
    | ok r =>
      obtain ⟨x, left⟩ := r
      obtain rfl := h.left_eq hnumber
      rw [hok hnumber] at hread
      cases hread
      exact ⟨x, rfl, rfl, rfl⟩
  · rintro ⟨x, hnumber, rfl, rfl⟩
    exact hok hnumber

end Bytewise

/-- **Integers never wrap.** A value that starts with a digit or a minus sign, anywhere in a text,
is the number there, and its reader goes on behind the longest run of number characters, if it goes
on. If the run has no point and no exponent, what is read is the integer of 64 bits that it is a
numeral for: digits with or without a minus sign, with zeros in front or not. Every other run of
this kind is refused with its own text, however long it is. -/
theorem number_exact {c : Char} (hc : c = '-' ∨ Decimal.isDigit c = true) (before cs : List Char) :
    ∃ t rest, IsRun t (c :: cs) rest ∧
      (∀ given levels depth,
        Bytewise.value given (levels + 1) depth (bytesOf (before ++ c :: cs))
            (bytesOf before).length =
          Bytewise.number (bytesOf (before ++ c :: cs)) (bytesOf before).length) ∧
      (∀ v pos, Bytewise.number (bytesOf (before ++ c :: cs)) (bytesOf before).length =
          .ok (v, pos) →
        pos = (bytesOf (before ++ t)).length) ∧
      ((∀ d ∈ t, isFloatMark d = false) →
        ReadsInteger t Number.int rest (.badNumber (String.ofList t)) (number (c :: cs)) ∧
        ReadsInteger t Json.int (bytesOf (before ++ t)).length
          (.refused "GRAPHQL_PARSE_FAILED"
            ("Syntax Error: Invalid number \"" ++ String.ofList t ++ "\"."))
          (Bytewise.number (bytesOf (before ++ c :: cs)) (bytesOf before).length)) := by
  obtain ⟨t, rest, hrun⟩ := exists_isRun (c :: cs)
  have hplus : t.head? ≠ some '+' := by
    rw [hrun.head?_eq (isNumberChar_of_start hc)]
    rintro ⟨⟩
    revert hc
    decide
  refine ⟨t, rest, hrun, fun given levels depth => ?_, fun v pos hread => ?_, fun hplain => ?_⟩
  · exact Bytewise.value_eq_number ⟨before, rfl, rfl⟩ hc given levels depth
  · obtain ⟨x, -, -, hpos⟩ := (Bytewise.number_eq_ok_iff hrun).mp hread
    exact hpos
  · have hchars := readsInteger_number hrun hplus hplain
    refine ⟨hchars, fun v pos => ?_, fun hnone => Bytewise.number_of_error (hchars.refuses hnone)⟩
    rw [Bytewise.number_eq_ok_iff hrun]
    constructor
    · rintro ⟨x, hread, rfl, rfl⟩
      obtain ⟨n, ht, hn, rfl, -⟩ := (hchars.accepts x rest).mp hread
      exact ⟨n, ht, hn, rfl, rfl⟩
    · rintro ⟨n, ht, hn, rfl, rfl⟩
      exact ⟨.int n, (hchars.accepts _ _).mpr ⟨n, ht, hn, rfl, rfl⟩, rfl, rfl⟩

/-- The least integer of 64 bits is read in the middle of a text. -/
theorem number_exact_least :
    ('-' = '-' ∨ Decimal.isDigit '-' = true) ∧
      Bytewise.number (bytesOf ("\x7b f(a: ".toList ++ '-' :: "9223372036854775808) \x7d".toList))
          (bytesOf "\x7b f(a: ".toList).length =
        .ok (.int (-9223372036854775808),
          (bytesOf ("\x7b f(a: ".toList ++ "-9223372036854775808".toList)).length) := by
  refine ⟨.inl rfl, ?_⟩
  obtain ⟨t, rest, hrun, -, -, hread⟩ :=
    number_exact (.inl rfl : '-' = '-' ∨ _) "\x7b f(a: ".toList "9223372036854775808) \x7d".toList
  have hleast : IsRun "-9223372036854775808".toList ('-' :: "9223372036854775808) \x7d".toList)
      ") \x7d".toList := by
    refine ⟨rfl, List.all_eq_true.mp (by decide), ?_⟩
    rintro c ⟨⟩
    decide
  obtain ⟨rfl, rfl⟩ := hrun.unique hleast
  have hnumeral : Numeral "-9223372036854775808".toList (-9223372036854775808) :=
    @Numeral.negative "9223372036854775808".toList (by decide) (List.all_eq_true.mp (by decide))
  have hread := (hread hnumeral.not_isFloatMark).2
  exact (hread.accepts _ _).mpr ⟨_, hnumeral, ⟨by decide, by decide⟩, rfl, rfl⟩

/-- There is one more below zero than above. -/
example : number "9223372036854775808".toList = .error (.badNumber "9223372036854775808") := by
  decide +kernel

end Intranet.Graphql
