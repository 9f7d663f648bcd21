import Intranet.Proofs.Graphql.Cuts
import Intranet.Proofs.Graphql.Places
import Intranet.Proofs.Graphql.Variables

/-!
# Tokens read by their bytes

The readers of tokens that go byte by byte agree with those that take characters. Where one of them
stops is a sound place again, also where it passed over longer characters in comments or strings.

Main results:

* `skipIgnored_agrees`, `eat_some`, `eat_none`, `expect_agrees`, `name_agrees`, `number_agrees`;
* `string_agrees`: strings, whose bytes always spell one.
-/

namespace Intranet.Graphql.Bytewise

open Json (bytesOf bytesOf_nil bytesOf_cons bytesOf_append)

/-- What clients are told of a malformed document. -/
def told (m : Malformed) : Stop := .refused "GRAPHQL_PARSE_FAILED" m.message

section Tokens

variable {all cs rest : List Char} {c : Char} {pos : Nat}

/-- At a character the next byte is its first one, and it can be taken. -/
theorem At.byte (h : At all (c :: cs) pos) : ∃ b, (bytesOf all)[pos]? = some b ∧
    latin b = shown c ∧ pos + 1 ≤ (bytesOf all).length := by
  obtain ⟨b, tail, hb⟩ := exists_utf8EncodeChar c
  have hget := h.getElem?_cons hb
  exact ⟨b, hget, latin_first hb, (List.getElem?_eq_some_iff.mp hget).1⟩

/-! ## What does not count -/

/-- The characters behind the end of a line. -/
def afterLine : List Char → List Char
  | [] => []
  | c :: cs => if c = '\n' then cs else afterLine cs

theorem skipFrom_true (cs : List Char) : skipFrom true cs = skipFrom false (afterLine cs) := by
  induction cs with
  | nil => rfl
  | cons c cs ih =>
    rw [skipFrom, afterLine]
    split
    · rfl
    · exact ih

theorem length_afterLine_le (cs : List Char) : (afterLine cs).length ≤ cs.length := by
  induction cs with
  | nil => exact Nat.le_refl 0
  | cons c cs ih =>
    rw [afterLine, List.length_cons]
    split <;> omega

theorem skipLine_agrees : Follows told skipLine fun cs => .ok ((), afterLine cs) := by
  intro all cs pos h
  refine loop_agrees_self (S := fun _ cs => .ok ((), afterLine cs)) h ?_
  intro t cs pos h _
  cases cs with
  | nil =>
    left
    rw [lineRound, peek_bind, h.getElem?_nil]
    exact .done rfl h
  | cons c cs =>
    by_cases hc : c = '\n'
    · subst hc
      obtain ⟨b, hget, hlatin, hle⟩ := h.byte
      left
      rw [lineRound, peek_bind, hget]
      dsimp only
      rw [advance_bind hle, hlatin, if_pos (by decide)]
      exact .done (by simp [afterLine]) (h.next_ascii (by decide))
    · right
      refine .mk (fun s _ => s) (by simp [afterLine, hc]) rfl ?_
      intro s pos b hb hget
      rw [lineRound, peek_bind, hget]
      dsimp only
      rw [advance_bind (List.getElem?_eq_some_iff.mp hget).1,
        if_neg (latin_ne_of_mem (by decide) hc hb)]
      rfl

theorem ascii_of_all {ds : List Char} (hds : ds.all (fun d => d.toNat < 128) = true) {d : Char}
    (hd : d ∈ ds) : d.toNat < 128 := of_decide_eq_true (List.all_eq_true.mp hds d hd)

theorem shown_mem_iff {ds : List Char} (hds : ds.all (fun d => d.toNat < 128) = true) :
    shown c ∈ ds ↔ c ∈ ds := by
  constructor
  · intro h
    rwa [(shown_eq_iff (ascii_of_all hds h)).mp rfl]
  · intro h
    rwa [shown_of_ascii (ascii_of_all hds h)]

/-- Whether the byte order mark comes next. -/
theorem isPrefixOf_mark (c : Char) (cs : List Char) :
    "\ufeff".toList.isPrefixOf (c :: cs) = decide (c = '\ufeff') := by
  show (('\ufeff' == c) && true) = _
  rw [Bool.and_true]
  exact Bool.beq_comm

theorem skipIgnored_agrees :
    Follows told skipIgnored fun cs => .ok ((), Graphql.skipIgnored cs) := by
  intro all cs pos h
  refine loop_agrees_self (S := fun _ cs => .ok ((), Graphql.skipIgnored cs)) h ?_
  intro t cs pos h _
  left
  cases cs with
  | nil =>
    rw [ignoredRound, peek_bind, h.getElem?_nil]
    exact .done rfl h
  | cons c cs =>
    obtain ⟨b, hget, hlatin, hle⟩ := h.byte
    have hblanks : [' ', '\t', '\n', '\r', ','].all (fun d => d.toNat < 128) = true := by decide
    have hskip : ∀ {ds : List Char}, skipFrom false (c :: cs) = skipFrom false ds →
        (Except.ok ((), Graphql.skipIgnored (c :: cs)) : Except Malformed (Unit × List Char)) =
          .ok ((), Graphql.skipIgnored ds) := by
      intro ds hds
      unfold Graphql.skipIgnored
      rw [hds]
    rw [ignoredRound, peek_bind, hget]
    dsimp only
    rw [hlatin]
    by_cases hblank : c ∈ [' ', '\t', '\n', '\r', ',']
    · rw [if_pos ((shown_mem_iff hblanks).mpr hblank), advance_bind hle]
      refine .yield (u := ()) (hskip ?_) (h.next_ascii (ascii_of_all hblanks hblank))
        (Nat.lt_succ_self _)
      have hignored : isIgnored c = true := by
        simp only [List.mem_cons, List.not_mem_nil, or_false] at hblank
        rcases hblank with rfl | rfl | rfl | rfl | rfl <;> decide
      rw [skipFrom, if_pos hignored]
    rw [if_neg (mt (shown_mem_iff hblanks).mp hblank)]
    by_cases hhash : c = '#'
    · subst hhash
      rw [if_pos (by decide)]
      refine (skipLine_agrees h).turn ?_ (by simp)
      intro a cs' pos' hline hat
      cases hline
      have hafter : afterLine ('#' :: cs) = afterLine cs := by simp [afterLine]
      rw [hafter] at hat
      refine .yield (u := ()) (hskip ?_) hat ?_
      · rw [← skipFrom_true, skipFrom, if_neg (by decide), if_pos rfl]
      · have := length_afterLine_le cs
        simp only [List.length_cons]
        omega
    rw [if_neg (mt (shown_eq_iff (by decide)).mp hhash), bind_ok (h.startsWith_eq _),
      isPrefixOf_mark]
    by_cases hmark : c = '\ufeff'
    · subst hmark
      have hlength : (Utf8.encode "\ufeff").length = (String.utf8EncodeChar '\ufeff').length := by
        rw [Utf8.encode_eq]
        rfl
      have hnext := h.next
      rw [if_pos (by decide), hlength, advance_bind hnext.le_length]
      refine .yield (u := ()) (hskip ?_) hnext (Nat.lt_succ_self _)
      rw [skipFrom, if_pos (by decide)]
    · rw [if_neg (by simpa using hmark)]
      refine .done ?_ h
      have hignored : isIgnored c = false := by
        simp only [List.mem_cons, List.not_mem_nil, or_false, not_or] at hblank
        simp [isIgnored, hblank, hmark]
      show Except.ok ((), skipFrom false (c :: cs)) = _
      rw [skipFrom, if_neg (by simp [hignored]), if_neg hhash]

/-! ## What clients are told -/

section Refusals

variable {α : Type} {text : List UInt8} {b : UInt8}

theorem malformed_told {message : String} {m : Malformed}
    (h : "Syntax Error: " ++ message = m.message) :
    (malformed message : Reader α) text pos = .error (told m) := by
  show Except.error (Stop.refused _ ("Syntax Error: " ++ message)) = _
  rw [h]
  rfl

theorem unexpected_told (h : latin b = shown c) :
    (unexpected b : Reader α) text pos = .error (told (.unexpectedChar c)) := by
  apply malformed_told
  rw [h, ← String.append_assoc, ← String.append_assoc]
  rfl

theorem unexpectedEnd_told : (unexpectedEnd : Reader α) text pos = .error (told .unexpectedEnd) :=
  malformed_told rfl

end Refusals

/-! ## Punctuation and names -/

theorem At.peek_latin (h : At all cs pos) :
    (bytesOf all)[pos]?.map latin = cs.head?.map shown := by
  cases cs with
  | nil =>
    rw [h.getElem?_nil]
    rfl
  | cons c cs =>
    obtain ⟨b, hget, hlatin, -⟩ := h.byte
    rw [hget, Option.map_some, hlatin]
    rfl

theorem At.peek_any {p : Char → Bool} (hp : IsAscii p) (h : At all cs pos) :
    (bytesOf all)[pos]?.any (p ∘ latin) = cs.head?.any p := by
  cases cs with
  | nil =>
    rw [h.getElem?_nil]
    rfl
  | cons c cs =>
    obtain ⟨b, hget, hlatin, -⟩ := h.byte
    rw [hget]
    show p (latin b) = p c
    rw [hlatin, hp.shown_eq]

theorem head_shown_iff {d : Char} (hd : d.toNat < 128) :
    cs.head?.map shown = some d ↔ cs.head? = some d := by
  cases cs with
  | nil => simp
  | cons c cs => simp [shown_eq_iff hd]

theorem eat_some (hc : c.toNat < 128) (h : At all cs pos) (he : Graphql.eat? c cs = some rest) :
    ∃ pos', eat c (bytesOf all) pos = .ok (true, pos') ∧ At all rest pos' := by
  obtain ⟨pos', hskip, hat⟩ := skipIgnored_agrees h
  rw [skipIgnored_of_eat? he] at hat
  obtain ⟨b, -, -, hle⟩ := hat.byte
  refine ⟨pos' + 1, ?_, hat.next_ascii hc⟩
  show (skipIgnored >>= _) (bytesOf all) pos = _
  rw [bind_ok hskip, peek_bind, hat.peek_latin, if_pos ((head_shown_iff hc).mpr rfl),
    advance_bind hle]
  rfl

theorem eat_none (hc : c.toNat < 128) (h : At all cs pos) (he : Graphql.eat? c cs = none) :
    ∃ pos', eat c (bytesOf all) pos = .ok (false, pos') ∧
      At all (Graphql.skipIgnored cs) pos' := by
  obtain ⟨pos', hskip, hat⟩ := skipIgnored_agrees h
  have hhead : (Graphql.skipIgnored cs).head? ≠ some c := by
    intro hhead
    unfold Graphql.eat? at he
    cases hs : Graphql.skipIgnored cs with
    | nil =>
      rw [hs] at hhead
      cases hhead
    | cons d rest =>
      rw [hs] at hhead he
      cases hhead
      simp at he
  refine ⟨pos', ?_, hat⟩
  show (skipIgnored >>= _) (bytesOf all) pos = _
  rw [bind_ok hskip, peek_bind, hat.peek_latin, if_neg (mt (head_shown_iff hc).mp hhead)]
  rfl

theorem expect_agrees (hc : c.toNat < 128) :
    Follows told (expect c) fun cs => (Graphql.expect c cs).map fun rest => ((), rest) := by
  intro all cs pos h
  show Agrees told all ((eat c >>= _) (bytesOf all) pos) ((Graphql.expect c cs).map _)
  unfold Graphql.expect
  cases he : Graphql.eat? c cs with
  | some rest =>
    obtain ⟨pos', heat, hat⟩ := eat_some hc h he
    rw [bind_ok heat]
    exact ⟨pos', rfl, hat⟩
  | none =>
    obtain ⟨pos', heat, hat⟩ := eat_none hc h he
    rw [bind_ok heat, if_neg (by decide), peek_bind]
    show _ = Except.error (told _)
    cases hs : Graphql.skipIgnored cs with
    | nil =>
      rw [hs] at hat
      have hfound : "\", found <EOF>." = "\", found " ++ "<EOF>." := rfl
      rw [hat.getElem?_nil]
      apply malformed_told
      rw [hfound]
      simp only [← String.append_assoc]
      rfl
    | cons d rest =>
      rw [hs] at hat
      obtain ⟨b, hget, hlatin, -⟩ := hat.byte
      have hfound : "\", found \"" = "\", found " ++ "\"" := rfl
      rw [hget]
      apply malformed_told
      rw [hlatin, hfound]
      show _ = "Syntax Error: Expected \"" ++ String.singleton c ++ "\", found " ++
        ("\"" ++ String.singleton (shown d) ++ "\".")
      simp only [← String.append_assoc]
      rfl

theorem passWhile_agrees {p : Char → Bool} (hp : IsAscii p) :
    Follows told (passWhile p) fun cs => .ok ((), cs.dropWhile p) := by
  intro all cs pos h
  refine loop_agrees_self (S := fun _ cs => .ok ((), cs.dropWhile p)) h ?_
  intro t cs pos h _
  left
  rw [whileRound, peek_bind, h.peek_any hp]
  cases cs with
  | nil => exact .done rfl h
  | cons c cs =>
    rw [List.head?_cons, Option.any_some]
    by_cases hc : p c = true
    · obtain ⟨b, -, -, hle⟩ := h.byte
      rw [if_pos hc, advance_bind hle]
      refine .yield (u := ()) ?_ (h.next_ascii (hp c hc)) (Nat.lt_succ_self _)
      rw [List.dropWhile_cons, if_pos hc]
    · rw [if_neg hc]
      refine .done ?_ h
      rw [List.dropWhile_cons, if_neg hc]

/-- What was passed over is cut out of the text. -/
theorem At.slice_of_append {xs : List Char} {pos' : Nat} (h : At all (xs ++ cs) pos)
    (h' : At all cs pos') (here : Nat) :
    slice pos pos' (bytesOf all) here = .ok (String.ofList xs, here) := by
  rw [h'.unique h.append]
  exact h.slice_eq here

theorem name_agrees : Follows told name Graphql.name := by
  intro all cs pos h
  obtain ⟨pos', hskip, hat⟩ := skipIgnored_agrees h
  show Agrees told all ((skipIgnored >>= _) (bytesOf all) pos) _
  rw [bind_ok hskip, place_bind, peek_bind]
  unfold Graphql.name
  cases hs : Graphql.skipIgnored cs with
  | nil =>
    rw [hs] at hat
    rw [hat.getElem?_nil]
    exact unexpectedEnd_told
  | cons c rest =>
    rw [hs] at hat
    obtain ⟨b, hget, hlatin, hle⟩ := hat.byte
    rw [hget]
    dsimp only
    rw [hlatin, isAscii_isNameStart.shown_eq]
    by_cases hc : isNameStart c = true
    · have hnext := hat.next_ascii (isAscii_isNameStart c hc)
      obtain ⟨pos'', hpass, hat'⟩ := passWhile_agrees isAscii_isNameChar hnext
      rw [if_pos hc, if_pos hc, advance_bind hle, bind_ok hpass, place_bind]
      rw [← List.takeWhile_append_dropWhile (p := isNameChar) (l := rest),
        ← List.cons_append] at hat
      exact ⟨pos'', hat.slice_of_append hat' pos'', hat'⟩
    · rw [if_neg hc, if_neg hc]
      exact unexpected_told hlatin

theorem number_agrees :
    Follows told number fun cs => (Graphql.number cs).map (Prod.map numberValue id) := by
  intro all cs pos h
  obtain ⟨pos', hpass, hat⟩ := passWhile_agrees isAscii_isNumberChar h
  show Agrees told all ((place >>= _) (bytesOf all) pos) _
  rw [place_bind, bind_ok hpass, place_bind]
  rw [← List.takeWhile_append_dropWhile (p := isNumberChar) (l := cs)] at h
  rw [bind_ok (h.slice_of_append hat pos'), String.toList_ofList]
  unfold Graphql.number
  dsimp only
  split
  · cases Decimal.doubleL? (cs.takeWhile isNumberChar) with
    | some d => exact ⟨pos', rfl, hat⟩
    | none =>
      apply malformed_told
      simp only [← String.append_assoc]
      rfl
  · cases Decimal.int64L? (cs.takeWhile isNumberChar) with
    | some n => exact ⟨pos', rfl, hat⟩
    | none =>
      apply malformed_told
      simp only [← String.append_assoc]
      rfl

/-! ## Strings on one line -/

theorem isAscii_hexDigit : IsAscii Hex.isDigit := by
  intro c hc
  unfold Hex.isDigit Hex.value? at hc
  repeat' split at hc
  · next h => exact isAscii_range (a := '0') (z := '9') (by decide) c (by simpa using h)
  · next h => exact isAscii_range (a := 'a') (z := 'f') (by decide) c (by simpa using h)
  · next h => exact isAscii_range (a := 'A') (z := 'F') (by decide) c (by simpa using h)
  · cases hc

theorem value?_of_high (h : ¬c.toNat < 128) : Hex.value? c = none := by
  cases hv : Hex.value? c with
  | none => rfl
  | some v => exact absurd (isAscii_hexDigit c (by simp [Hex.isDigit, hv])) h

theorem ascii_of_codePoint? {a b c d x : Char} (h : codePoint? a b c d = some x) :
    ∀ y ∈ [a, b, c, d], y.toNat < 128 := by
  intro y hy
  rcases Nat.lt_or_ge y.toNat 128 with hlt | hge
  · exact hlt
  · have hplus : y ≠ '+' := by
      rintro rfl
      exact absurd hge (by decide)
    rw [codePoint?_of_mem (value?_of_high (Nat.not_lt.mpr hge)) hplus hy] at h
    cases h

theorem ascii_of_pointed? {s : String} {x : Char} (h : pointed? s = some x) :
    ∀ y ∈ s.toList, y.toNat < 128 := by
  intro y hy
  rcases Nat.lt_or_ge y.toNat 128 with hlt | hge
  · exact hlt
  · have hnone := value?_of_high (Nat.not_lt.mpr hge)
    unfold pointed? at h
    split at h
    · next digits hs =>
      rw [hs] at hy
      rcases List.mem_cons.mp hy with rfl | hy
      · exact absurd hge (by decide)
      · rw [natL?_of_mem hnone hy] at h
        cases h
    · rw [natL?_of_mem hnone hy] at h
      cases h

theorem length_bytesOf_ascii {xs : List Char} (h : ∀ y ∈ xs, y.toNat < 128) :
    (bytesOf xs).length = xs.length := by
  induction xs with
  | nil => rfl
  | cons x xs ih =>
    rw [bytesOf_cons, utf8EncodeChar_ascii (h x List.mem_cons_self), List.length_append,
      ih fun y hy => h y (List.mem_cons_of_mem x hy), List.length_cons, Nat.add_comm]
    rfl

theorem pointed?_four (a b c d : Char) :
    pointed? (String.ofList [a, b, c, d]) = codePoint? a b c d := by
  unfold pointed? codePoint?
  rw [String.toList_ofList]
  by_cases ha : a = '+'
  · subst ha
    rfl
  · rw [if_neg ha]
    split
    · next h =>
      cases h
      exact absurd rfl ha
    · rfl

/-- The character whose number the next four characters give. -/
def fourth? : List Char → Option Char
  | a :: b :: c :: d :: _ => codePoint? a b c d
  | _ => none

/-- The next four bytes give a number exactly where the next four characters do. -/
theorem At.pointed?_eq (h : At all cs pos) (here : Nat) :
    ∃ o, slice? pos (pos + 4) (bytesOf all) here = .ok (o, here) ∧
      o.bind pointed? = fourth? cs := by
  obtain ⟨o, ho⟩ : ∃ o, slice? pos (pos + 4) (bytesOf all) here = .ok (o, here) := by
    unfold slice?
    split
    · exact ⟨_, rfl⟩
    · exact ⟨none, rfl⟩
  refine ⟨o, ho, Option.ext fun x => ?_⟩
  constructor
  · intro hx
    obtain ⟨s, rfl, hpoint⟩ := Option.bind_eq_some_iff.mp hx
    obtain ⟨hlength, ds, rfl⟩ := h.of_slice? ho
    rw [length_bytesOf_ascii (ascii_of_pointed? hpoint)] at hlength
    match hs : s.toList with
    | [a, b, c, d] =>
      rw [← String.ofList_toList (s := s), hs, pointed?_four] at hpoint
      exact hpoint
    | [] | [_] | [_, _] | [_, _, _] | _ :: _ :: _ :: _ :: _ :: _ =>
      rw [hs] at hlength
      simp at hlength
  · intro hx
    match cs with
    | a :: b :: c :: d :: ds =>
      have hfour : At all ([a, b, c, d] ++ ds) pos := h
      have hslice := hfour.slice?_eq here
      rw [length_bytesOf_ascii (ascii_of_codePoint? hx)] at hslice
      change slice? pos (pos + 4) (bytesOf all) here = _ at hslice
      rw [ho] at hslice
      cases hslice
      rw [Option.bind_some, pointed?_four]
      exact hx
    | [] | [_] | [_, _] | [_, _, _] => cases hx

theorem isAscii_escapeLetter : IsAscii fun c => (escapeLetter? c).isSome := by
  intro c hc
  obtain ⟨x, hx⟩ := Option.isSome_iff_exists.mp hc
  have hall : ∀ p ∈ escapes, p.1.toNat < 128 := by decide
  exact hall (c, x) (mem_escapes_of_escapeLetter? hx)

theorem escapeLetter?_shown (c : Char) : escapeLetter? (shown c) = escapeLetter? c := by
  by_cases hc : c.toNat < 128
  · rw [shown_of_ascii hc]
  · have hnone : escapeLetter? c = none := by
      cases he : escapeLetter? c with
      | none => rfl
      | some x => exact absurd (isAscii_escapeLetter c (by simp [he])) hc
    have hshown := isAscii_escapeLetter.shown_eq c
    rw [hnone] at hshown
    rw [hnone]
    exact Option.isNone_iff_eq_none.mp (by simpa using hshown)

/-- What is written behind a backslash. -/
theorem escape_turn {done : List Char} (h : At all cs pos) :
    Turn told all (fun done => bytesOf done.reverse) bytesOf stringOnto done ('\\' :: cs)
      (escape (bytesOf done.reverse) (bytesOf all) pos) := by
  have hdone : ∀ x, bytesOf done.reverse ++ String.utf8EncodeChar x =
      bytesOf (x :: done).reverse := by
    intro x
    rw [List.reverse_cons, bytesOf_append, bytesOf_cons, bytesOf_nil, List.append_nil]
  cases cs with
  | nil =>
    rw [escape, peek_bind, h.getElem?_nil]
    dsimp only
    rw [malformed_told (m := .openString) rfl]
    exact .stop rfl
  | cons e cs =>
    obtain ⟨b, hget, hlatin, hle⟩ := h.byte
    rw [escape, peek_bind, hget]
    dsimp only
    rw [hlatin]
    by_cases he : e = 'u'
    · subst he
      have hnext := h.next_ascii (by decide)
      obtain ⟨o, ho, hpoint⟩ := hnext.pointed?_eq (pos + 1)
      rw [advance_bind hle, if_pos (by decide), place_bind, bind_ok ho, hpoint]
      cases hx : fourth? cs with
      | none =>
        dsimp only
        rw [malformed_told (m := .badCodePoint) rfl]
        apply Turn.stop
        apply stringOnto_badCodePoint
        rintro a b c d ds rfl
        exact hx
      | some x =>
        match cs with
        | a :: b :: c :: d :: ds =>
          have hlength := length_bytesOf_ascii (ascii_of_codePoint? hx)
          have hin : At all ([a, b, c, d] ++ ds) (pos + 1) := hnext
          have hfour := hin.append
          rw [hlength] at hfour
          change At all ds (pos + 1 + 4) at hfour
          dsimp only
          rw [advance_bind hfour.le_length, hdone]
          refine .yield (stringOnto_codePoint hx done ds) hfour ?_
          simp only [List.length_cons]
          omega
        | [] | [_] | [_, _] | [_, _, _] => cases hx
    · rw [advance_bind hle, if_neg (mt (shown_eq_iff (by decide)).mp he), escapeLetter?_shown]
      cases hx : escapeLetter? e with
      | none =>
        dsimp only
        rw [malformed_told (m := .badEscape e)]
        · exact .stop (stringOnto_badEscape he hx done cs)
        · simp only [← String.append_assoc]
          rfl
      | some x =>
        have hnext := h.next_ascii (isAscii_escapeLetter e (by simp [hx]))
        dsimp only
        rw [hdone]
        refine .yield (stringOnto_escape he hx done cs) hnext ?_
        simp only [List.length_cons]
        omega

theorem stringRound_turn {done : List Char} (h : At all cs pos) :
    Turn told all (fun done => bytesOf done.reverse) bytesOf stringOnto done cs
        (stringRound (bytesOf done.reverse) (bytesOf all) pos) ∨
      Pass all (fun done => bytesOf done.reverse) stringOnto stringRound done cs := by
  cases cs with
  | nil =>
    left
    rw [stringRound, peek_bind, h.getElem?_nil]
    dsimp only
    rw [malformed_told (m := .openString) rfl]
    exact .stop rfl
  | cons c cs =>
    obtain ⟨b, hget, hlatin, hle⟩ := h.byte
    by_cases hn : c = '\n'
    · subst hn
      left
      rw [stringRound, peek_bind, hget]
      dsimp only
      rw [hlatin, if_pos (by decide), malformed_told (m := .brokenString) rfl]
      exact .stop (stringOnto_line done cs)
    by_cases hq : c = '"'
    · subst hq
      left
      rw [stringRound, peek_bind, hget]
      dsimp only
      rw [hlatin, if_neg (by decide), if_pos (by decide), advance_bind hle]
      exact .done (stringOnto_quote done cs) (h.next_ascii (by decide))
    by_cases hs : c = '\\'
    · subst hs
      left
      rw [stringRound, peek_bind, hget]
      dsimp only
      rw [hlatin, if_neg (by decide), if_neg (by decide), if_pos (by decide), advance_bind hle]
      exact escape_turn (h.next_ascii (by decide))
    · right
      refine .mk (u := c :: done) (fun out b => out ++ [b])
        (stringOnto_plain hs hq hn done cs) ?_ ?_
      · rw [List.foldl_append_eq_append (f := fun b => [b]), ← List.flatMap_def,
          List.flatMap_singleton', List.reverse_cons, bytesOf_append, bytesOf_cons, bytesOf_nil,
          List.append_nil]
      · intro out pos b hb hget
        rw [stringRound, peek_bind, hget]
        dsimp only
        rw [if_neg (latin_ne_of_mem (by decide) hn hb), if_neg (latin_ne_of_mem (by decide) hq hb),
          if_neg (latin_ne_of_mem (by decide) hs hb),
          advance_bind (List.getElem?_eq_some_iff.mp hget).1]
        rfl

/-- A string on one line. Its bytes spell one, since they are those of the characters it has. -/
theorem line_agrees (h : At all ('"' :: cs) pos) : Agrees told all (line (bytesOf all) pos)
    ((stringOnto [] cs).map fun s => (String.ofList s.1, s.2)) := by
  obtain ⟨b, -, -, hle⟩ := h.byte
  have hloop := loop_agrees (t := []) (h.next_ascii (by decide)) fun hat _ => stringRound_turn hat
  show Agrees told all ((advance 1 >>= _) (bytesOf all) pos) _
  rw [advance_bind hle]
  cases hs : stringOnto [] cs with
  | error e =>
    rw [hs] at hloop
    exact bind_error hloop
  | ok r =>
    obtain ⟨s, rest⟩ := r
    rw [hs] at hloop
    obtain ⟨pos', hr, hat⟩ := hloop
    have hdecode := Json.decode?_bytesOf (String.ofList s)
    rw [String.toList_ofList] at hdecode
    refine ⟨pos', ?_, hat⟩
    refine (bind_ok hr).trans ?_
    dsimp only
    rw [hdecode]
    rfl

/-! ## Block strings -/

/-- Bytes other than quotes do not end a block string. -/
theorem blockEnd?_append {bytes : List UInt8} (h : ∀ b ∈ bytes, 128 ≤ b.toNat)
    (more : List UInt8) :
    blockEnd? (bytes ++ more) = (blockEnd? more).map (· + bytes.length) := by
  induction bytes with
  | nil =>
    rw [List.nil_append]
    cases blockEnd? more <;> rfl
  | cons b bytes ih =>
    have hb := h b List.mem_cons_self
    have hne : (Utf8.encode "\"\"\"").isPrefixOf (b :: (bytes ++ more)) = false := by
      rw [Utf8.encode_eq]
      show ((34 : UInt8) == b && _) = false
      have hquote : ((34 : UInt8) == b) = false := by
        rw [beq_eq_false_iff_ne]
        rintro rfl
        exact absurd hb (by decide)
      rw [hquote]
      rfl
    rw [List.cons_append, blockEnd?, if_neg (by simp [hne]),
      ih fun b' hb' => h b' (List.mem_cons_of_mem b hb'), Option.map_map, List.length_cons]
    congr 1

/-- Three quotes are seen by their bytes. -/
theorem quotes_isPrefixOf (cs : List Char) :
    (Utf8.encode "\"\"\"").isPrefixOf (bytesOf cs) = ['"', '"', '"'].isPrefixOf cs := by
  rw [Utf8.encode_eq]
  exact isPrefixOf_bytesOf ['"', '"', '"'] cs

theorem isPrefixOf_quotes_iff : ['"', '"', '"'].isPrefixOf cs = true ↔
    ∃ ds, cs = '"' :: '"' :: '"' :: ds := by
  rw [List.isPrefixOf_iff_prefix]
  constructor
  · rintro ⟨ds, rfl⟩
    exact ⟨ds, rfl⟩
  · rintro ⟨ds, rfl⟩
    exact ⟨ds, rfl⟩

/-- Where no three quotes come next, the end of a block string lies behind the next character. -/
theorem blockEnd?_cons (h : ¬∃ ds, c :: cs = '"' :: '"' :: '"' :: ds) :
    blockEnd? (bytesOf (c :: cs)) =
      (blockEnd? (bytesOf cs)).map (· + (String.utf8EncodeChar c).length) := by
  by_cases hc : c.toNat < 128
  · have hbytes : bytesOf (c :: cs) = UInt8.ofNat c.toNat :: bytesOf cs := by
      rw [bytesOf_cons, utf8EncodeChar_ascii hc]
      rfl
    rw [hbytes, blockEnd?, ← hbytes, quotes_isPrefixOf, if_neg (mt isPrefixOf_quotes_iff.mp h),
      utf8EncodeChar_ascii hc]
    rfl
  · exact blockEnd?_append (fun b hb => high_of_mem_utf8EncodeChar (by omega) hb) (bytesOf cs)

/-- A block string ends with the first three quotes, and so do its bytes. -/
theorem blockOnto_cases (done cs : List Char) :
    (∃ xs ds, cs = xs ++ '"' :: '"' :: '"' :: ds ∧
      blockOnto done cs = .ok (done.reverse ++ xs, ds) ∧
      blockEnd? (bytesOf cs) = some (bytesOf xs).length) ∨
    (blockOnto done cs = .error .openString ∧ blockEnd? (bytesOf cs) = none) := by
  induction cs generalizing done with
  | nil => exact .inr ⟨rfl, rfl⟩
  | cons c cs ih =>
    by_cases hclose : ∃ ds, c :: cs = '"' :: '"' :: '"' :: ds
    · have hprefix := isPrefixOf_quotes_iff.mpr hclose
      obtain ⟨ds, hds⟩ := hclose
      rw [← quotes_isPrefixOf, hds] at hprefix
      rw [hds]
      refine .inl ⟨[], ds, rfl, ?_, ?_⟩
      · rw [blockOnto_close, List.append_nil]
      · show blockEnd? (34 :: bytesOf ('"' :: '"' :: ds)) = _
        rw [blockEnd?]
        exact if_pos hprefix
    · rw [blockOnto_cons fun ds hds => hclose ⟨ds, hds⟩, blockEnd?_cons hclose]
      rcases ih (c :: done) with ⟨xs, ds, rfl, hr, he⟩ | ⟨hr, he⟩
      · refine .inl ⟨c :: xs, ds, rfl, ?_, ?_⟩
        · rw [hr, List.reverse_cons, List.append_assoc, List.singleton_append]
        · rw [he, bytesOf_cons, List.length_append, Nat.add_comm]
          rfl
      · refine .inr ⟨hr, ?_⟩
        rw [he]
        rfl

theorem block_agrees (h : At all ('"' :: '"' :: '"' :: cs) pos) :
    Agrees told all (block (bytesOf all) pos)
      ((blockOnto [] cs).map fun s => (String.ofList s.1, s.2)) := by
  have hquotes : At all (['"', '"', '"'] ++ cs) pos := h
  have hin : At all cs (pos + 3) := hquotes.append
  show Agrees told all ((advance 3 >>= _) (bytesOf all) pos) _
  rw [advance_bind hin.le_length, bind_ok hin.rest_eq]
  rcases blockOnto_cases [] cs with ⟨xs, ds, rfl, hr, he⟩ | ⟨hr, he⟩
  · have hend : At all ds (pos + 3 + ((bytesOf xs).length + 3)) := by
      have hquotes : At all (['"', '"', '"'] ++ ds) _ := hin.append
      rw [← Nat.add_assoc]
      exact hquotes.append
    rw [hr, he]
    dsimp only
    rw [place_bind, bind_ok (hin.slice_eq _), advance_bind hend.le_length]
    exact ⟨_, rfl, hend⟩
  · rw [hr, he]
    exact malformed_told rfl

theorem string_agrees (h : At all ('"' :: cs) pos) :
    Agrees told all (string (bytesOf all) pos) (Graphql.string ('"' :: cs)) := by
  show Agrees told all ((startsWith "\"\"\"" >>= _) (bytesOf all) pos) _
  have hquotes : "\"\"\"".toList = ['"', '"', '"'] := rfl
  rw [bind_ok (h.startsWith_eq _), hquotes]
  by_cases hblock : ∃ ds, '"' :: cs = '"' :: '"' :: '"' :: ds
  · rw [if_pos (isPrefixOf_quotes_iff.mpr hblock)]
    obtain ⟨ds, hds⟩ := hblock
    cases hds
    rw [string_block]
    exact block_agrees h
  · rw [if_neg (mt isPrefixOf_quotes_iff.mp hblock),
      string_plain fun ds hds => hblock ⟨ds, congrArg _ hds⟩]
    exact line_agrees h

end Tokens

end Intranet.Graphql.Bytewise
