import Intranet.Http.Form
import Intranet.Proofs.Utf8
import Mathlib.Data.List.TakeDrop

/-!
# Form encoding, there and back

A query that is written for a name and a value is read as that pair, whatever characters they have.
What is written for a byte is one byte or three, none of which separates pairs or a name from its
value.

* `decodePart_encodePart` — a name or a value by itself;
* `decode_queryOf` — the query for a pair.
-/

namespace Intranet.Http.Form

/-! ## Parts -/

/-- The bytes that are written for a byte. -/
def codeOf (b : UInt8) : List UInt8 := (encodeByte b).map fun c => UInt8.ofNat c.toNat

/-- A capital digit as a byte. -/
def digitOf (n : Nat) : UInt8 := UInt8.ofNat (capitalDigit n).toNat

theorem value?_digitOf {n : Nat} (h : n < 16) :
    Hex.value? (Char.ofNat (digitOf n).toNat) = some n := by
  have hall : ∀ i : Fin 16, Hex.value? (Char.ofNat (digitOf i).toNat) = some i.val := by decide
  exact hall ⟨n, h⟩

theorem isPlain_digitOf {n : Nat} (h : n < 16) : isPlain (digitOf n) = true := by
  have hall : ∀ i : Fin 16, isPlain (digitOf i) = true := by decide
  exact hall ⟨n, h⟩

theorem capitalDigit_lt {n : Nat} (h : n < 16) : (capitalDigit n).toNat < 128 := by
  have hall : ∀ i : Fin 16, (capitalDigit i).toNat < 128 := by decide
  exact hall ⟨n, h⟩

theorem toNat_ofNat_byte (b : UInt8) : (Char.ofNat b.toNat).toNat = b.toNat := by
  have hb := b.toNat_lt
  have hvalid : b.toNat.isValidChar := .inl (by omega)
  rw [Char.ofNat, dif_pos hvalid]
  rfl

theorem toNat_lt_of_isPlain {b : UInt8} (h : isPlain b = true) : b.toNat < 128 := by
  simp only [isPlain, Bool.or_eq_true, Bool.and_eq_true, decide_eq_true_eq, UInt8.le_iff_toNat_le,
    ← UInt8.toNat_inj, UInt8.reduceToNat] at h
  omega

theorem ne_of_isPlain {b c : UInt8} (h : isPlain b = true) (hc : isPlain c = false) : b ≠ c := by
  rintro rfl
  rw [h] at hc
  cases hc

/-- How a byte is written: as it is, as a plus sign, or with two digits. -/
inductive Written (b : UInt8) : List UInt8 → Prop
  | plain (h : isPlain b = true) : Written b [b]
  | blank (h : b = 32) : Written b [43]
  | escaped : Written b [37, digitOf (b.toNat / 16), digitOf (b.toNat % 16)]

theorem written (b : UInt8) : Written b (codeOf b) := by
  unfold codeOf encodeByte
  split
  · next h =>
    rw [List.map_singleton, toNat_ofNat_byte, UInt8.ofNat_toNat]
    exact .plain h
  · split
    · next h => exact .blank h
    · exact .escaped

theorem ascii_encodeByte (b : UInt8) : ∀ c ∈ encodeByte b, c.toNat < 128 := by
  have hb := b.toNat_lt
  unfold encodeByte
  split
  · next h =>
    intro c hc
    rw [List.mem_singleton.1 hc, toNat_ofNat_byte]
    exact toNat_lt_of_isPlain h
  · split
    · intro c hc
      rw [List.mem_singleton.1 hc]
      decide
    · intro c hc
      rcases List.mem_cons.1 hc with rfl | hc
      · decide
      · rcases List.mem_cons.1 hc with rfl | hc
        · exact capitalDigit_lt (by omega)
        · rw [List.mem_singleton.1 hc]
          exact capitalDigit_lt (by omega)

/-- Nothing that is written for a byte separates pairs, or a name from its value. -/
theorem codeOf_separates (b : UInt8) : ∀ c ∈ codeOf b, c ≠ 38 ∧ c ≠ 61 := by
  have hwritten := written b
  generalize codeOf b = code at hwritten ⊢
  intro c hc
  cases hwritten with
  | plain h =>
    rw [List.mem_singleton.1 hc]
    exact ⟨ne_of_isPlain h (by decide), ne_of_isPlain h (by decide)⟩
  | blank h =>
    rw [List.mem_singleton.1 hc]
    decide
  | escaped =>
    have hb := b.toNat_lt
    have hhigh : isPlain (digitOf (b.toNat / 16)) = true := isPlain_digitOf (by omega)
    have hlow : isPlain (digitOf (b.toNat % 16)) = true := isPlain_digitOf (by omega)
    rcases List.mem_cons.1 hc with rfl | hc
    · decide
    · rcases List.mem_cons.1 hc with rfl | hc
      · exact ⟨ne_of_isPlain hhigh (by decide), ne_of_isPlain hhigh (by decide)⟩
      · rw [List.mem_singleton.1 hc]
        exact ⟨ne_of_isPlain hlow (by decide), ne_of_isPlain hlow (by decide)⟩

theorem unescapeOnto_plain {c : UInt8} (hc : c ≠ 37) (done rest : List UInt8) :
    unescapeOnto done (c :: rest) = unescapeOnto (c :: done) rest := by
  rw [unescapeOnto]
  intro _ _ _ h
  exact absurd h hc

/-- A plus sign is a blank. -/
def blank (b : UInt8) : UInt8 := if b = 43 then 32 else b

theorem blank_of_isPlain {b : UInt8} (h : isPlain b = true) : blank b = b :=
  if_neg (ne_of_isPlain h (by decide))

/-- What is written for a byte is read as that byte. -/
theorem unescapeOnto_codeOf (b : UInt8) (done rest : List UInt8) :
    unescapeOnto done ((codeOf b).map blank ++ rest) = unescapeOnto (b :: done) rest := by
  have hwritten := written b
  generalize codeOf b = code at hwritten ⊢
  cases hwritten with
  | plain h =>
    rw [List.map_singleton, blank_of_isPlain h]
    exact unescapeOnto_plain (ne_of_isPlain h (by decide)) done rest
  | blank h =>
    rw [h]
    exact unescapeOnto_plain (by decide) done rest
  | escaped =>
    have hb := b.toNat_lt
    have hhigh : isPlain (digitOf (b.toNat / 16)) = true := isPlain_digitOf (by omega)
    have hlow : isPlain (digitOf (b.toNat % 16)) = true := isPlain_digitOf (by omega)
    have hkept : [37, digitOf (b.toNat / 16), digitOf (b.toNat % 16)].map blank =
        [37, digitOf (b.toNat / 16), digitOf (b.toNat % 16)] := by
      rw [List.map_cons, List.map_cons, List.map_singleton, blank_of_isPlain hhigh,
        blank_of_isPlain hlow]
      rfl
    have hbyte : b.toNat / 16 * 16 + b.toNat % 16 = b.toNat := by omega
    rw [hkept, List.cons_append, List.cons_append, List.cons_append, unescapeOnto,
      value?_digitOf (by omega), value?_digitOf (by omega)]
    dsimp only
    rw [hbyte, UInt8.ofNat_toNat, List.nil_append]

/-- Whatever was read before, what is written for bytes adds these bytes. -/
theorem unescapeOnto_flatMap (done bytes : List UInt8) :
    unescapeOnto done ((bytes.flatMap codeOf).map blank) = done.reverse ++ bytes := by
  induction bytes generalizing done with
  | nil => simp [unescapeOnto]
  | cons b bytes ih =>
    rw [List.flatMap_cons, List.map_append, unescapeOnto_codeOf, ih, List.reverse_cons,
      List.append_assoc, List.singleton_append]

/-- The bytes of an encoded part. -/
theorem encode_encodePart (s : String) :
    Utf8.encode (encodePart s) = (Utf8.encode s).flatMap codeOf := by
  rw [encodePart, Utf8.encode_ascii]
  · rw [List.map_flatMap]
    rfl
  · intro c hc
    obtain ⟨b, -, hc⟩ := List.mem_flatMap.1 hc
    exact ascii_encodeByte b c hc

/-- **A part, there and back.** -/
theorem decodePart_encodePart (s : String) : decodePart (Utf8.encode (encodePart s)) = s := by
  have hread := unescapeOnto_flatMap [] (Utf8.encode s)
  rw [decodePart, encode_encodePart]
  exact (congrArg Utf8.decodeLossy hread).trans (Utf8.decodeLossy_encode s)

/-! ## Pairs -/

theorem not_mem_encodePart (s : String) {c : UInt8} (hc : c = 38 ∨ c = 61) :
    c ∉ Utf8.encode (encodePart s) := by
  rw [encode_encodePart]
  intro hmem
  obtain ⟨b, -, hcode⟩ := List.mem_flatMap.1 hmem
  obtain ⟨hpairs, hvalue⟩ := codeOf_separates b c hcode
  rcases hc with rfl | rfl
  · exact hpairs rfl
  · exact hvalue rfl

/-- The query with one pair. -/
def queryOf (name value : String) : String := encodePart name ++ "=" ++ encodePart value

theorem encode_queryOf (name value : String) :
    Utf8.encode (queryOf name value) =
      Utf8.encode (encodePart name) ++ 61 :: Utf8.encode (encodePart value) := by
  simp only [Utf8.encode_eq, queryOf, String.toList_append, List.flatMap_append, List.append_assoc]
  rfl

/-- **A pair, there and back.** -/
theorem decode_queryOf (name value : String) : decode (queryOf name value) = [(name, value)] := by
  have hsingle : 38 ∉ Utf8.encode (queryOf name value) := by
    rw [encode_queryOf]
    intro hmem
    rcases List.mem_append.1 hmem with hmem | hmem
    · exact not_mem_encodePart name (.inl rfl) hmem
    · rcases List.mem_cons.1 hmem with hmem | hmem
      · cases hmem
      · exact not_mem_encodePart value (.inl rfl) hmem
  have hfull : (Utf8.encode (queryOf name value)).isEmpty = false := by
    rw [encode_queryOf]
    simp
  rw [decode, List.splitOn_eq_singleton hsingle, List.filter_cons_of_pos (by rw [hfull]; rfl)]
  simp only [List.filter_nil, List.map_cons, List.map_nil, decodePair]
  have hwords : ∀ c ∈ Utf8.encode (encodePart name), decide (c ≠ 61) = true := by
    intro c hc
    exact decide_eq_true fun h => not_mem_encodePart name (.inr rfl) (h ▸ hc)
  rw [encode_queryOf, List.span_eq_takeWhile_dropWhile, List.takeWhile_append_of_pos hwords,
    List.dropWhile_append_of_pos hwords]
  simp only [List.takeWhile_cons_of_neg, List.dropWhile_cons_of_neg, ne_eq, not_true_eq_false,
    decide_false, Bool.false_eq_true, not_false_eq_true, List.append_nil, List.drop_succ_cons,
    List.drop_zero, decodePart_encodePart]

end Intranet.Http.Form
