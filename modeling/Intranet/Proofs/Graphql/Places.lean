import Intranet.Graphql.Bytewise
import Intranet.Proofs.Json.Reading
import Intranet.Proofs.Graphql.Strings

/-!
# Places in a text

A place is sound when it stands before a character: then what is left of the bytes are the bytes of
what is left of the characters. Whatever a reader does at such a place is said by `Agrees`, in
terms of a reader of characters.

Main results:

* `shown_eq_iff`, `IsAscii.shown_eq`: the first byte of a character decides what the character is,
  if it is asked for characters of one byte only;
* `exists_append_of_bytesOf`: bytes that start with those of some characters are those of
  characters that start with them;
* `At.slice_eq`, `At.of_slice?`, `At.startsWith_eq`: what is cut out of the text between sound
  places;
* `Follows.eq_ok`, `Follows.eq_error`: what agreement says of a part of a text with more around it;
* `Agrees.bind`: readers that agree one after the other;
* `loop_agrees`: a loop agrees with a recursion on characters if each of its rounds does its part,
  also where it passes over a character byte by byte.
-/

namespace Intranet.Graphql.Bytewise

open Json (bytesOf bytesOf_nil bytesOf_cons bytesOf_append)

/-! ## The bytes of a character -/

/-- A character of one byte. -/
theorem utf8EncodeChar_ascii {c : Char} (h : c.toNat < 128) :
    String.utf8EncodeChar c = [UInt8.ofNat c.toNat] := by
  unfold String.utf8EncodeChar
  exact if_pos (Nat.le_of_lt_succ h)

theorem toNat_ofNat_small {n : Nat} (h : n < 256) : (UInt8.ofNat n).toNat = n := by
  rw [UInt8.toNat_ofNat']
  exact Nat.mod_eq_of_lt h

/-- The bytes of any other character lie above those of characters of one byte. -/
theorem high_of_mem_utf8EncodeChar {c : Char} (h : 128 ≤ c.toNat) {b : UInt8}
    (hb : b ∈ String.utf8EncodeChar c) : 128 ≤ b.toNat := by
  have hnat : c.val.toNat = c.toNat := rfl
  have hone : ¬c.toNat ≤ 127 := by omega
  unfold String.utf8EncodeChar at hb
  rw [hnat] at hb
  dsimp only at hb
  rw [if_neg hone] at hb
  repeat' split at hb
  all_goals
    simp only [List.mem_cons, List.not_mem_nil, or_false] at hb
    rcases hb with rfl | rfl | rfl | rfl
    all_goals
      rw [toNat_ofNat_small (by omega)]
      omega

/-- The first byte of a character and those behind it. -/
theorem exists_utf8EncodeChar (c : Char) : ∃ b tail, String.utf8EncodeChar c = b :: tail := by
  cases h : String.utf8EncodeChar c with
  | nil => exact absurd h String.utf8EncodeChar_ne_nil
  | cons b tail => exact ⟨b, tail, rfl⟩

/-- The first byte of a character does not go on with another one. -/
theorem isTail_first {c : Char} {b : UInt8} {tail : List UInt8}
    (h : String.utf8EncodeChar c = b :: tail) : Utf8.isTail b = false := by
  have hread := Utf8.next_encoded h []
  cases htail : Utf8.isTail b with
  | false => rfl
  | true =>
    exfalso
    simp only [Utf8.isTail, Bool.and_eq_true, decide_eq_true_eq, UInt8.le_iff_toNat_le,
      show (0x80 : UInt8).toNat = 128 from rfl, show (0xBF : UInt8).toNat = 191 from rfl] at htail
    unfold Utf8.next at hread
    rw [if_neg (by simp [UInt8.lt_iff_toNat_lt]; omega),
      if_neg (by simp [UInt8.le_iff_toNat_le]; omega),
      if_neg (by simp [UInt8.le_iff_toNat_le]; omega),
      if_neg (by simp [UInt8.le_iff_toNat_le]; omega)] at hread
    cases hread

theorem latin_toNat (b : UInt8) : (latin b).toNat = b.toNat := by
  have hb : b.toNat < 256 := b.toNat_lt
  rw [latin, Char.ofNat, dif_pos (.inl (by omega))]
  rfl

theorem latin_of_ascii {c : Char} (h : c.toNat < 128) : latin (UInt8.ofNat c.toNat) = c := by
  unfold latin
  rw [toNat_ofNat_small (by omega), Char.ofNat_toNat]

/-- A byte of a character is another character of one byte only if that one is the character. -/
theorem latin_ne_of_mem {c d : Char} (hd : d.toNat < 128) (hne : c ≠ d) {b : UInt8}
    (hb : b ∈ String.utf8EncodeChar c) : latin b ≠ d := by
  rintro rfl
  by_cases hc : c.toNat < 128
  · rw [utf8EncodeChar_ascii hc, List.mem_singleton] at hb
    rw [hb, latin_of_ascii hc] at hne
    exact hne rfl
  · have hhigh := high_of_mem_utf8EncodeChar (by omega) hb
    rw [latin_toNat] at hd
    omega

theorem latin_first {c : Char} {b : UInt8} {tail : List UInt8}
    (h : String.utf8EncodeChar c = b :: tail) : latin b = shown c := by
  unfold shown
  rw [h]
  rfl

/-! ## Questions about characters of one byte -/

theorem shown_of_ascii {c : Char} (h : c.toNat < 128) : shown c = c := by
  rw [← latin_first (utf8EncodeChar_ascii h), latin_of_ascii h]

theorem shown_eq_iff {c d : Char} (hd : d.toNat < 128) : shown c = d ↔ c = d := by
  constructor
  · intro h
    obtain ⟨b, tail, hb⟩ := exists_utf8EncodeChar c
    rcases Decidable.em (c = d) with hc | hne
    · exact hc
    · have hlatin : latin b ≠ d := latin_ne_of_mem hd hne (hb ▸ List.mem_cons_self)
      rw [latin_first hb] at hlatin
      exact absurd h hlatin
  · rintro rfl
    exact shown_of_ascii hd

/-- A kind of characters of one byte. -/
def IsAscii (p : Char → Bool) : Prop := ∀ c, p c = true → c.toNat < 128

/-- The first byte tells whether a character is of the kind. -/
theorem IsAscii.shown_eq {p : Char → Bool} (hp : IsAscii p) (c : Char) : p (shown c) = p c := by
  by_cases hc : c.toNat < 128
  · rw [shown_of_ascii hc]
  · have hfalse : ∀ d, ¬d.toNat < 128 → p d = false := by
      intro d hd
      cases h : p d with
      | false => rfl
      | true => exact absurd (hp d h) hd
    rw [hfalse c hc, hfalse (shown c)]
    intro hs
    have heq := (shown_eq_iff (d := shown c) hs).mp rfl
    rw [← heq] at hs
    exact hc hs

theorem isAscii_eq {d : Char} (hd : d.toNat < 128) : IsAscii fun c => c = d := by
  intro c hc
  rw [of_decide_eq_true hc]
  exact hd

theorem isAscii_range {a z : Char} (hz : z.toNat < 128) : IsAscii fun c => a ≤ c && c ≤ z := by
  intro c hc
  rw [Bool.and_eq_true, decide_eq_true_eq, decide_eq_true_eq] at hc
  have hle : c.toNat ≤ z.toNat := hc.2
  omega

theorem IsAscii.or {p q : Char → Bool} (hp : IsAscii p) (hq : IsAscii q) :
    IsAscii fun c => p c || q c := by
  intro c hc
  rcases Bool.or_eq_true_iff.mp hc with h | h
  · exact hp c h
  · exact hq c h

theorem isAscii_isDigit : IsAscii Decimal.isDigit := isAscii_range (by decide)

theorem isAscii_isNameStart : IsAscii isNameStart :=
  ((isAscii_eq (by decide)).or (isAscii_range (by decide))).or (isAscii_range (by decide))

theorem isAscii_isNameChar : IsAscii isNameChar := isAscii_isNameStart.or isAscii_isDigit

theorem isAscii_isNumberChar : IsAscii isNumberChar := by
  unfold isNumberChar
  iterate 5 apply IsAscii.or _ (isAscii_eq (by decide))
  exact isAscii_isDigit

theorem isAscii_isHeaderChar : IsAscii isHeaderChar := by
  unfold isHeaderChar
  iterate 7 apply IsAscii.or _ (isAscii_eq (by decide))
  exact isAscii_isNameChar

/-! ## Bytes of a text -/

/-- Bytes that start with those of some characters are those of characters that start with them. -/
theorem exists_append_of_bytesOf {xs cs : List Char} {rest : List UInt8}
    (h : bytesOf cs = bytesOf xs ++ rest) : ∃ ds, cs = xs ++ ds := by
  induction xs generalizing cs with
  | nil => exact ⟨cs, rfl⟩
  | cons x xs ih =>
    obtain ⟨b, tail, hx⟩ := exists_utf8EncodeChar x
    cases cs with
    | nil =>
      rw [bytesOf_cons, hx] at h
      cases h
    | cons c cs =>
      obtain ⟨b', tail', hc⟩ := exists_utf8EncodeChar c
      rw [bytesOf_cons, bytesOf_cons, hx, hc, List.append_assoc, List.cons_append,
        List.cons_append, List.cons.injEq] at h
      obtain ⟨rfl, h⟩ := h
      -- both characters are what stands at the first byte
      have hread := Utf8.next_encoded hc (bytesOf cs)
      rw [h, Utf8.next_encoded hx (bytesOf xs ++ rest), Prod.mk.injEq, Option.some.injEq] at hread
      obtain ⟨rfl, -⟩ := hread
      rw [hx] at hc
      cases hc
      obtain ⟨ds, rfl⟩ := ih (List.append_cancel_left h)
      exact ⟨ds, rfl⟩

theorem isPrefixOf_bytesOf (xs cs : List Char) :
    (bytesOf xs).isPrefixOf (bytesOf cs) = xs.isPrefixOf cs := by
  rw [Bool.eq_iff_iff, List.isPrefixOf_iff_prefix, List.isPrefixOf_iff_prefix]
  constructor
  · rintro ⟨rest, h⟩
    obtain ⟨ds, rfl⟩ := exists_append_of_bytesOf h.symm
    exact List.prefix_append xs ds
  · rintro ⟨ds, rfl⟩
    rw [bytesOf_append]
    exact List.prefix_append _ _

/-- Bytes that spell a string are the bytes of it. -/
theorem bytesOf_of_decode? {bytes : List UInt8} {s : String} (h : Utf8.decode? bytes = some s) :
    bytesOf s.toList = bytes := by
  unfold Utf8.decode? String.fromUTF8? at h
  split at h
  · cases h
    show List.flatMap _ _ = _
    rw [← Utf8.encode_eq, Utf8.encode, ByteArray.toList, Utf8.toList_loop, List.drop_zero]
    exact List.toList_data_toByteArray
  · cases h

/-! ## Sound places -/

/-- In a text of the characters `all`, the characters `cs` are left at the place. -/
def At (all cs : List Char) (pos : Nat) : Prop :=
  ∃ before, all = before ++ cs ∧ (bytesOf before).length = pos

section Places

variable {all cs cs' : List Char} {c : Char} {pos pos' : Nat}

theorem at_start (all : List Char) : At all all 0 := ⟨[], rfl, rfl⟩

theorem At.drop (h : At all cs pos) : (bytesOf all).drop pos = bytesOf cs := by
  obtain ⟨before, rfl, rfl⟩ := h
  rw [bytesOf_append, List.drop_left]

theorem At.add_length (h : At all cs pos) : pos + (bytesOf cs).length = (bytesOf all).length := by
  obtain ⟨before, rfl, rfl⟩ := h
  rw [bytesOf_append, List.length_append]

theorem At.le_length (h : At all cs pos) : pos ≤ (bytesOf all).length := by
  have := h.add_length
  omega

theorem At.append {xs : List Char} (h : At all (xs ++ cs) pos) :
    At all cs (pos + (bytesOf xs).length) := by
  obtain ⟨before, rfl, rfl⟩ := h
  refine ⟨before ++ xs, (List.append_assoc _ _ _).symm, ?_⟩
  rw [bytesOf_append, List.length_append]

theorem At.next (h : At all (c :: cs) pos) :
    At all cs (pos + (String.utf8EncodeChar c).length) := by
  have hone : At all ([c] ++ cs) pos := h
  have h' := hone.append
  rwa [bytesOf_cons, bytesOf_nil, List.append_nil] at h'

/-- Behind a character of one byte. -/
theorem At.next_ascii (hc : c.toNat < 128) (h : At all (c :: cs) pos) : At all cs (pos + 1) := by
  have h' := h.next
  rwa [utf8EncodeChar_ascii hc] at h'

theorem At.unique (h : At all cs pos) (h' : At all cs pos') : pos = pos' := by
  have hlength := h.add_length
  have hlength' := h'.add_length
  omega

/-- Where as many characters are left or fewer, they are the last ones. -/
theorem At.exists_append (h : At all cs pos) (h' : At all cs' pos')
    (hle : cs'.length ≤ cs.length) : ∃ xs, cs = xs ++ cs' := by
  obtain ⟨before, hall, -⟩ := h
  obtain ⟨before', hall', -⟩ := h'
  obtain ⟨xs, hxs⟩ :=
    List.suffix_of_suffix_length_le ⟨before', hall'.symm⟩ ⟨before, hall.symm⟩ hle
  exact ⟨xs, hxs.symm⟩

theorem At.le (h : At all cs pos) (h' : At all cs' pos') (hle : cs'.length ≤ cs.length) :
    pos ≤ pos' := by
  obtain ⟨xs, rfl⟩ := h.exists_append h' hle
  rw [h'.unique h.append]
  exact Nat.le_add_right _ _

/-- Where fewer characters are left, the place is further on. -/
theorem At.lt (h : At all cs pos) (h' : At all cs' pos') (hlt : cs'.length < cs.length) :
    pos < pos' := by
  obtain ⟨xs, rfl⟩ := h.exists_append h' (Nat.le_of_lt hlt)
  cases xs with
  | nil => exact absurd hlt (Nat.lt_irrefl _)
  | cons x xs =>
    obtain ⟨b, tail, hb⟩ := exists_utf8EncodeChar x
    rw [h'.unique h.append, bytesOf_cons, hb, List.cons_append, List.length_cons]
    omega

theorem At.getElem?_nil (h : At all [] pos) : (bytesOf all)[pos]? = none := by
  apply List.getElem?_eq_none
  have := h.add_length
  rw [bytesOf_nil] at this
  simp only [List.length_nil] at this
  omega

/-- The next byte is the first one of the next character. -/
theorem At.getElem?_cons {b : UInt8} {tail : List UInt8} (hb : String.utf8EncodeChar c = b :: tail)
    (h : At all (c :: cs) pos) : (bytesOf all)[pos]? = some b := by
  have hdrop := h.drop
  rw [bytesOf_cons, hb, List.cons_append] at hdrop
  rw [← Nat.add_zero pos, ← List.getElem?_drop, hdrop]
  rfl

theorem At.boundary (h : At all cs pos) : isBoundary (bytesOf all) pos = true := by
  unfold isBoundary
  cases cs with
  | nil =>
    have hend := h.add_length
    rw [bytesOf_nil, List.length_nil, Nat.add_zero] at hend
    simp [hend]
  | cons c cs =>
    obtain ⟨b, tail, hb⟩ := exists_utf8EncodeChar c
    rw [h.getElem?_cons hb]
    simp [isTail_first hb]

/-- What is cut out between sound places. -/
theorem At.slice?_eq {xs : List Char} (h : At all (xs ++ cs) pos) (here : Nat) :
    slice? pos (pos + (bytesOf xs).length) (bytesOf all) here =
      .ok (some (String.ofList xs), here) := by
  unfold slice?
  rw [if_pos ⟨Nat.le_add_right _ _, h.boundary, h.append.boundary⟩, h.drop, bytesOf_append,
    Nat.add_sub_cancel_left, List.take_left]
  have hdecode := Json.decode?_bytesOf (String.ofList xs)
  rw [String.toList_ofList] at hdecode
  rw [hdecode]

theorem At.slice_eq {xs : List Char} (h : At all (xs ++ cs) pos) (here : Nat) :
    slice pos (pos + (bytesOf xs).length) (bytesOf all) here = .ok (String.ofList xs, here) := by
  show Reader.bind _ _ _ _ = _
  unfold Reader.bind
  rw [h.slice?_eq]
  rfl

/-- The place between the two bytes of `ä` is found out. -/
example : slice 0 1 [0xC3, 0xA4] 0 = .error (.breach .insideCharacter) := by rfl

theorem le_length_of_isBoundary {text : List UInt8} (h : isBoundary text pos = true) :
    pos ≤ text.length := by
  unfold isBoundary at h
  simp only [Bool.or_eq_true, decide_eq_true_eq] at h
  rcases h with (h | h) | h
  · omega
  · omega
  · cases hget : text[pos]? with
    | none =>
      rw [hget] at h
      cases h
    | some b => exact Nat.le_of_lt (List.getElem?_eq_some_iff.mp hget).1

/-- A string that is cut out at a sound place is what comes next there. -/
theorem At.of_slice? {n here : Nat} {s : String} (h : At all cs pos)
    (hs : slice? pos (pos + n) (bytesOf all) here = .ok (some s, here)) :
    (bytesOf s.toList).length = n ∧ ∃ ds, cs = s.toList ++ ds := by
  unfold slice? at hs
  split at hs
  · next hends =>
    have hdecode : Utf8.decode? (((bytesOf all).drop pos).take (pos + n - pos)) = some s := by
      simpa using hs
    have hbytes := bytesOf_of_decode? hdecode
    have hstop := le_length_of_isBoundary hends.2.2
    have hlength := h.add_length
    rw [h.drop, Nat.add_sub_cancel_left] at hbytes
    constructor
    · rw [hbytes, List.length_take]
      omega
    · have hsplit : bytesOf cs = bytesOf s.toList ++ (bytesOf cs).drop n := by
        rw [hbytes, List.take_append_drop]
      exact exists_append_of_bytesOf hsplit
  · cases hs

theorem At.rest_eq (h : At all cs pos) : rest (bytesOf all) pos = .ok (bytesOf cs, pos) := by
  unfold Bytewise.rest
  rw [if_pos h.boundary, h.drop]

theorem At.startsWith_eq (h : At all cs pos) (s : String) :
    startsWith s (bytesOf all) pos = .ok (s.toList.isPrefixOf cs, pos) := by
  show Reader.bind _ _ _ _ = _
  unfold Reader.bind
  rw [h.rest_eq]
  show Except.ok _ = _
  rw [← isPrefixOf_bytesOf, Utf8.encode_eq]
  rfl

end Places

/-! ## Readers that agree -/

variable {ε α β σ : Type}

/-- A reader of bytes ends as a reader of characters does: with the same value and the same
characters left, or refused with what is told of the same reason. -/
def Agrees (tell : ε → Stop) (all : List Char) (r : Except Stop (α × Nat)) :
    Except ε (α × List Char) → Prop
  | .ok (a, cs) => ∃ pos, r = .ok (a, pos) ∧ At all cs pos
  | .error e => r = .error (tell e)

/-- A reader of bytes agrees with one of characters at every sound place. -/
def Follows (tell : ε → Stop) (r : Reader α) (R : List Char → Except ε (α × List Char)) : Prop :=
  ∀ {all cs pos}, At all cs pos → Agrees tell all (r (bytesOf all) pos) (R cs)

section Agreement

variable {tell : ε → Stop} {all cs : List Char} {text : List UInt8} {pos pos' : Nat} {r : Reader α}
  {f : α → Reader β}

theorem agrees_pure (a : α) (h : At all cs pos) :
    Agrees tell all ((pure a : Reader α) text pos) (.ok (a, cs)) := ⟨pos, rfl, h⟩

/-- Where the one reader takes a part of a text, the other moves from the place in front of that
part to the one behind it. -/
theorem Follows.eq_ok {R : List Char → Except ε (α × List Char)}
    {before t rest : List Char} {a : α} (h : Follows tell r R)
    (hread : R (t ++ rest) = .ok (a, rest)) :
    r (bytesOf (before ++ (t ++ rest))) (bytesOf before).length =
      .ok (a, (bytesOf (before ++ t)).length) := by
  have hat : At (before ++ (t ++ rest)) (t ++ rest) (bytesOf before).length := ⟨before, rfl, rfl⟩
  have hagrees := h hat
  rw [hread] at hagrees
  obtain ⟨pos, hok, hpos⟩ := hagrees
  rw [hok, hpos.unique hat.append, bytesOf_append, List.length_append]

/-- What the one reader refuses, the other refuses. -/
theorem Follows.eq_error {R : List Char → Except ε (α × List Char)} {before cs : List Char} {e : ε}
    (h : Follows tell r R) (hread : R cs = .error e) :
    r (bytesOf (before ++ cs)) (bytesOf before).length = .error (tell e) := by
  have hat : At (before ++ cs) cs (bytesOf before).length := ⟨before, rfl, rfl⟩
  have hagrees := h hat
  rw [hread] at hagrees
  exact hagrees

/-- One reading after the other. -/
theorem Agrees.bind {x : Except ε (α × List Char)} {F : α × List Char → Except ε (β × List Char)}
    (h : Agrees tell all (r text pos) x)
    (hf : ∀ a cs pos, x = .ok (a, cs) → At all cs pos →
      Agrees tell all (f a text pos) (F (a, cs))) :
    Agrees tell all ((r >>= f) text pos) (x.bind F) := by
  show Agrees tell all (Reader.bind r f text pos) _
  unfold Reader.bind
  cases x with
  | error e =>
    change r text pos = _ at h
    rw [h]
    rfl
  | ok s =>
    obtain ⟨a, cs⟩ := s
    obtain ⟨pos', hr, hat⟩ := h
    rw [hr]
    exact hf a cs pos' rfl hat

/-- What is read is made into something else. -/
theorem Agrees.map {x : Except ε (α × List Char)}
    (h : Agrees tell all (r text pos) x) (g : α → β) :
    Agrees tell all ((do return g (← r)) text pos) (x.map (Prod.map g id)) := by
  have hbind := h.bind (f := fun a => pure (g a)) (F := fun s => .ok (g s.1, s.2))
    fun a cs pos _ hat => agrees_pure (g a) hat
  cases x <;> exact hbind

theorem bind_ok {a : α} (h : r text pos = .ok (a, pos')) : (r >>= f) text pos = f a text pos' := by
  show Reader.bind r f text pos = _
  unfold Reader.bind
  rw [h]

theorem bind_error {stop : Stop} (h : r text pos = .error stop) :
    (r >>= f) text pos = .error stop := by
  show Reader.bind r f text pos = _
  unfold Reader.bind
  rw [h]

theorem peek_bind {f : Option UInt8 → Reader β} (text : List UInt8) (pos : Nat) :
    (peek >>= f) text pos = f text[pos]? text pos := rfl

theorem place_bind {f : Nat → Reader β} (text : List UInt8) (pos : Nat) :
    (place >>= f) text pos = f pos text pos := rfl

theorem advance_bind {f : Unit → Reader β} {n : Nat} (h : pos + n ≤ text.length) :
    (advance n >>= f) text pos = f () text (pos + n) := by
  apply bind_ok
  exact if_pos h

end Agreement

/-! ## Loops -/

section Loops

variable {round : σ → Reader (ForInStep σ)} {s s' : σ} {text : List UInt8} {pos pos' : Nat}

theorem loop_stop {stop : Stop} (h : round s text pos = .error stop) :
    loop round s text pos = .error stop := by
  rw [loop, h]

theorem loop_done (h : round s text pos = .ok (.done s', pos')) :
    loop round s text pos = .ok (s', pos') := by
  rw [loop, h]

theorem loop_yield (h : round s text pos = .ok (.yield s', pos')) (hlt : pos < pos')
    (hle : pos' ≤ text.length) : loop round s text pos = loop round s' text pos' := by
  rw [loop, h]
  exact if_pos ⟨hlt, hle⟩

/-- A loop passes over bytes that each take a round. -/
theorem loop_pass (step : σ → UInt8 → σ) {bytes rest : List UInt8}
    (hdrop : text.drop pos = bytes ++ rest)
    (hround : ∀ s pos, ∀ b ∈ bytes, text[pos]? = some b →
      round s text pos = .ok (.yield (step s b), pos + 1)) :
    loop round s text pos = loop round (bytes.foldl step s) text (pos + bytes.length) := by
  induction bytes generalizing s pos with
  | nil => rfl
  | cons b bytes ih =>
    have hget : text[pos]? = some b := by
      rw [← Nat.add_zero pos, ← List.getElem?_drop, hdrop]
      rfl
    obtain ⟨hlt, -⟩ := List.getElem?_eq_some_iff.mp hget
    have hdrop' : text.drop (pos + 1) = bytes ++ rest := by
      rw [← List.drop_drop, hdrop]
      rfl
    rw [loop_yield (hround s pos b List.mem_cons_self hget) (Nat.lt_succ_self pos) hlt,
      ih hdrop' fun s pos b' hb' => hround s pos b' (List.mem_cons_of_mem b hb'),
      List.foldl_cons, List.length_cons, Nat.add_assoc, Nat.add_comm 1]

end Loops

section Rounds

variable {τ ω : Type} {tell : ε → Stop} {all : List Char} {f : τ → σ} {g : ω → σ}
  {R : τ → List Char → Except ε (ω × List Char)} {round : σ → Reader (ForInStep σ)}

variable (tell all f g R) in
/-- What a round does that starts at a sound place. The states of the loop stand for those of a
recursion on characters: the round ends the loop with what the recursion gives, or is refused as it
is, or comes to a place from which the recursion gives the same, with fewer characters left. -/
inductive Turn (t : τ) (cs : List Char) : Except Stop (ForInStep σ × Nat) → Prop where
  | done {a : ω} {cs' : List Char} {pos' : Nat} (h : R t cs = .ok (a, cs'))
      (hat : At all cs' pos') :
    Turn t cs (.ok (.done (g a), pos'))
  | stop {e : ε} (h : R t cs = .error e) : Turn t cs (.error (tell e))
  | yield {u : τ} {cs' : List Char} {pos' : Nat} (h : R t cs = R u cs') (hat : At all cs' pos')
    (hlt : cs'.length < cs.length) : Turn t cs (.ok (.yield (f u), pos'))

variable (all f R round) in
/-- The next character is passed over byte by byte, and the recursion passes over it too. -/
inductive Pass (t : τ) : List Char → Prop where
  | mk {c : Char} {cs : List Char} {u : τ} (step : σ → UInt8 → σ) (h : R t (c :: cs) = R u cs)
    (hstep : (String.utf8EncodeChar c).foldl step (f t) = f u)
    (hround : ∀ s pos, ∀ b ∈ String.utf8EncodeChar c, (bytesOf all)[pos]? = some b →
      round s (bytesOf all) pos = .ok (.yield (step s b), pos + 1)) : Pass t (c :: cs)

/-- A loop agrees with a recursion if each round does its part, wherever it starts from then on. -/
theorem loop_agrees {t : τ} {cs : List Char} {pos : Nat} (hat : At all cs pos)
    (hround : ∀ {t cs' pos'}, At all cs' pos' → cs'.length ≤ cs.length →
      Turn tell all f g R t cs' (round (f t) (bytesOf all) pos') ∨ Pass all f R round t cs') :
    Agrees tell all (loop round (f t) (bytesOf all) pos) ((R t cs).map (Prod.map g id)) := by
  induction hn : cs.length using Nat.strongRecOn generalizing t cs pos with
  | ind n ih =>
    subst hn
    have hnext : ∀ {t cs' pos'}, At all cs' pos' → cs'.length < cs.length →
        Agrees tell all (loop round (f t) (bytesOf all) pos') ((R t cs').map (Prod.map g id)) := by
      intro t cs' pos' hat' hlt
      apply ih _ hlt hat' _ rfl
      intro t ds pos hat hle
      exact hround hat (Nat.le_trans hle (Nat.le_of_lt hlt))
    rcases hround (t := t) hat (Nat.le_refl _) with hturn | hpass
    · generalize hr : round (f t) (bytesOf all) pos = r at hturn
      cases hturn with
      | done h hat' =>
        rw [h]
        exact ⟨_, loop_done hr, hat'⟩
      | stop h =>
        rw [h]
        exact loop_stop hr
      | yield h hat' hlt =>
        rw [loop_yield hr (hat.lt hat' hlt) hat'.le_length, h]
        exact hnext hat' hlt
    · cases hpass with
      | mk step h hstep hbytes =>
        rw [loop_pass step hat.drop hbytes, hstep, h]
        exact hnext hat.next (Nat.lt_succ_self _)

/-- A loop whose states are those of the recursion. -/
theorem loop_agrees_self {S : σ → List Char → Except ε (σ × List Char)} {s : σ} {cs : List Char}
    {pos : Nat} (hat : At all cs pos)
    (hround : ∀ {s cs' pos'}, At all cs' pos' → cs'.length ≤ cs.length →
      Turn tell all id id S s cs' (round s (bytesOf all) pos') ∨ Pass all id S round s cs') :
    Agrees tell all (loop round s (bytesOf all) pos) (S s cs) := by
  have hloop := loop_agrees (f := id) (g := id) (t := s) hat hround
  rw [Prod.map_id, Except.map_id] at hloop
  exact hloop

/-- A round that starts with a reader that agrees. -/
theorem Agrees.turn {α : Type} {r : Reader α} {k : α → Reader (ForInStep σ)} {t : τ}
    {cs : List Char} {text : List UInt8} {pos : Nat} {x : Except ε (α × List Char)}
    (h : Agrees tell all (r text pos) x)
    (hok : ∀ a cs' pos', x = .ok (a, cs') → At all cs' pos' →
      Turn tell all f g R t cs (k a text pos'))
    (herr : ∀ e, x = .error e → R t cs = .error e) :
    Turn tell all f g R t cs ((r >>= k) text pos) := by
  cases x with
  | error e =>
    rw [bind_error h]
    exact .stop (herr e rfl)
  | ok s =>
    obtain ⟨a, cs'⟩ := s
    obtain ⟨pos', hr, hat⟩ := h
    rw [bind_ok hr]
    exact hok a cs' pos' rfl hat

end Rounds

end Intranet.Graphql.Bytewise
