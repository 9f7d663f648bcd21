import Intranet.Text.Utf8

/-!
# UTF-8, there and back

The bytes of a string are read as that string, also by the lenient reader: it goes character by
character, and each of the four lengths that a character can have is a case of its own.

* `encode_eq` — the bytes of a string are those of its characters, one after the other;
* `next_encoded` — a character is read from its bytes, whatever follows them;
* `decodeLossy_encode` — so is the whole string;
* `decode?_encode` — the strict reader reads it, too.
-/

namespace Intranet.Utf8

/-! ## Characters -/

theorem toList_loop (bytes : ByteArray) (i : Nat) (done : List UInt8) :
    ByteArray.toList.loop bytes i done = done.reverse ++ bytes.data.toList.drop i := by
  rw [ByteArray.toList.loop]
  split
  · next hlt =>
    have hlt' : i < bytes.data.toList.length := hlt
    have hget : bytes.get! i = bytes.data.toList[i] := by
      have hdata : i < bytes.data.size := hlt
      rw [Array.getElem_toList]
      exact getElem!_pos bytes.data i hdata
    rw [toList_loop bytes (i + 1), List.drop_eq_getElem_cons hlt', hget, List.reverse_cons,
      List.append_assoc, List.singleton_append]
  · next hge =>
    have hend : bytes.data.toList.length ≤ i := Nat.le_of_not_lt hge
    rw [List.drop_eq_nil_of_le hend, List.append_nil]
termination_by bytes.size - i

/-- The bytes of a string are those of its characters. -/
theorem encode_eq (s : String) : encode s = s.toList.flatMap String.utf8EncodeChar := by
  rw [encode, ByteArray.toList, toList_loop, List.drop_zero, String.toUTF8,
    ← String.utf8Encode_toList, List.utf8Encode, List.toList_data_toByteArray]
  rfl

theorem isTail_of {b : UInt8} (hlow : 0x80 ≤ b.toNat) (hhigh : b.toNat ≤ 0xBF) :
    isTail b = true := by
  simp [isTail, UInt8.le_iff_toNat_le, hlow, hhigh]

theorem isSecond_of {b c : UInt8} (hlow : 0x80 ≤ c.toNat) (hhigh : c.toNat ≤ 0xBF)
    (he0 : b.toNat = 0xE0 → 0xA0 ≤ c.toNat) (hed : b.toNat = 0xED → c.toNat ≤ 0x9F)
    (hf0 : b.toNat = 0xF0 → 0x90 ≤ c.toNat) (hf4 : b.toNat = 0xF4 → c.toNat ≤ 0x8F) :
    isSecond b c = true := by
  have hsame {n : UInt8} (h : b = n) : b.toNat = n.toNat := congrArg UInt8.toNat h
  unfold isSecond
  split
  · next h => simp [UInt8.le_iff_toNat_le, he0 (hsame h), hhigh]
  · split
    · next h => simp [UInt8.le_iff_toNat_le, hed (hsame h), hlow]
    · split
      · next h => simp [UInt8.le_iff_toNat_le, hf0 (hsame h), hhigh]
      · split
        · next h => simp [UInt8.le_iff_toNat_le, hf4 (hsame h), hlow]
        · exact isTail_of hlow hhigh

section Next

variable {b c d e : UInt8}

theorem next_one (hb : b.toNat < 0x80) (rest : List UInt8) :
    next b rest = (some (Char.ofNat b.toNat), 0) := by
  unfold next
  rw [if_pos (UInt8.lt_iff_toNat_lt.2 hb)]

theorem next_two (hlow : 0xC2 ≤ b.toNat) (hhigh : b.toNat ≤ 0xDF) (hc : isTail c = true)
    (rest : List UInt8) :
    next b (c :: rest) = (some (Char.ofNat (b.toNat % 32 * 64 + payload c)), 1) := by
  have hone : ¬b < 0x80 := by simp [UInt8.lt_iff_toNat_lt]; omega
  have htwo : 0xC2 ≤ b ∧ b ≤ 0xDF := by simp [UInt8.le_iff_toNat_le]; omega
  unfold next
  rw [if_neg hone, if_pos (by simpa using htwo)]
  exact if_pos hc

theorem next_three (hlow : 0xE0 ≤ b.toNat) (hhigh : b.toNat ≤ 0xEF) (hc : isSecond b c = true)
    (hd : isTail d = true) (rest : List UInt8) :
    next b (c :: d :: rest) =
      (some (Char.ofNat ((b.toNat % 16 * 64 + payload c) * 64 + payload d)), 2) := by
  have hone : ¬b < 0x80 := by simp [UInt8.lt_iff_toNat_lt]; omega
  have htwo : ¬(0xC2 ≤ b ∧ b ≤ 0xDF) := by simp [UInt8.le_iff_toNat_le]; omega
  have hthree : 0xE0 ≤ b ∧ b ≤ 0xEF := by simp [UInt8.le_iff_toNat_le]; omega
  unfold next
  rw [if_neg hone, if_neg (by simpa using htwo), if_pos (by simpa using hthree)]
  exact (if_pos hc).trans (if_pos hd)

theorem next_four (hlow : 0xF0 ≤ b.toNat) (hhigh : b.toNat ≤ 0xF4) (hc : isSecond b c = true)
    (hd : isTail d = true) (he : isTail e = true) (rest : List UInt8) :
    next b (c :: d :: e :: rest) =
      (some (Char.ofNat (((b.toNat % 8 * 64 + payload c) * 64 + payload d) * 64 + payload e)),
        3) := by
  have hone : ¬b < 0x80 := by simp [UInt8.lt_iff_toNat_lt]; omega
  have htwo : ¬(0xC2 ≤ b ∧ b ≤ 0xDF) := by simp [UInt8.le_iff_toNat_le]; omega
  have hthree : ¬(0xE0 ≤ b ∧ b ≤ 0xEF) := by simp [UInt8.le_iff_toNat_le]; omega
  have hfour : 0xF0 ≤ b ∧ b ≤ 0xF4 := by simp [UInt8.le_iff_toNat_le]; omega
  unfold next
  rw [if_neg hone, if_neg (by simpa using htwo), if_neg (by simpa using hthree),
    if_pos (by simpa using hfour)]
  exact (if_pos hc).trans ((if_pos hd).trans (if_pos he))

end Next

/-- A character is read from its bytes. -/
theorem next_encoded {c : Char} {b : UInt8} {tail : List UInt8}
    (h : String.utf8EncodeChar c = b :: tail) (rest : List UInt8) :
    next b (tail ++ rest) = (some c, tail.length) := by
  have hvalid : c.toNat < 0xD800 ∨ 0xDFFF < c.toNat ∧ c.toNat < 0x110000 := c.valid
  have hsmall {n : Nat} (hn : n < 256) : (UInt8.ofNat n).toNat = n := by
    rw [UInt8.toNat_ofNat']
    exact Nat.mod_eq_of_lt hn
  have hread {n : Nat} (hn : n = c.toNat) : some (Char.ofNat n) = some c := by
    rw [hn, Char.ofNat_toNat]
  have hnat : c.val.toNat = c.toNat := rfl
  unfold String.utf8EncodeChar at h
  rw [hnat] at h
  generalize hv : c.toNat = v at h hvalid hread
  dsimp only at h
  split at h
  · next hone =>
    cases h
    rw [List.nil_append, next_one (by rw [hsmall] <;> omega), hsmall (by omega), hread rfl]
    rfl
  · split at h
    · next hone htwo =>
      cases h
      have h₁ := hsmall (n := v / 64 % 32 + 192) (by omega)
      have h₂ := hsmall (n := v % 64 + 128) (by omega)
      rw [List.cons_append, next_two (by omega) (by omega)
        (isTail_of (by omega) (by omega)), payload, h₁, h₂, hread (by omega)]
      rfl
    · split at h
      · next hone htwo hthree =>
        cases h
        have h₁ := hsmall (n := v / 4096 % 16 + 224) (by omega)
        have h₂ := hsmall (n := v / 64 % 64 + 128) (by omega)
        have h₃ := hsmall (n := v % 64 + 128) (by omega)
        have hsecond := isSecond_of (b := UInt8.ofNat (v / 4096 % 16 + 224))
          (c := UInt8.ofNat (v / 64 % 64 + 128)) (by omega) (by omega) (by omega) (by omega)
          (by omega) (by omega)
        rw [List.cons_append, List.cons_append, next_three (by omega) (by omega) hsecond
          (isTail_of (by omega) (by omega)), payload, payload, h₁, h₂, h₃, hread (by omega)]
        rfl
      · next hone htwo hthree =>
        cases h
        have h₁ := hsmall (n := v / 262144 % 8 + 240) (by omega)
        have h₂ := hsmall (n := v / 4096 % 64 + 128) (by omega)
        have h₃ := hsmall (n := v / 64 % 64 + 128) (by omega)
        have h₄ := hsmall (n := v % 64 + 128) (by omega)
        have hsecond := isSecond_of (b := UInt8.ofNat (v / 262144 % 8 + 240))
          (c := UInt8.ofNat (v / 4096 % 64 + 128)) (by omega) (by omega) (by omega) (by omega)
          (by omega) (by omega)
        rw [List.cons_append, List.cons_append, List.cons_append,
          next_four (by omega) (by omega) hsecond (isTail_of (by omega) (by omega))
            (isTail_of (by omega) (by omega)), payload, payload, payload, h₁, h₂, h₃, h₄,
          hread (by omega)]
        rfl

/-- Whatever characters were read before, a string adds its own. -/
theorem decodeOnto_encoded (done cs : List Char) :
    decodeOnto done (cs.flatMap String.utf8EncodeChar) = cs.reverse ++ done := by
  induction cs generalizing done with
  | nil => simp [decodeOnto]
  | cons c cs ih =>
    cases hc : String.utf8EncodeChar c with
    | nil => exact absurd hc String.utf8EncodeChar_ne_nil
    | cons b tail =>
      rw [List.flatMap_cons, hc, List.cons_append, decodeOnto, next_encoded hc]
      dsimp only
      rw [List.drop_left, Option.getD_some, ih, List.reverse_cons, List.append_assoc,
        List.singleton_append]

/-- **UTF-8, there and back.** -/
theorem decodeLossy_encode (s : String) : decodeLossy (encode s) = s := by
  rw [decodeLossy, encode_eq, decodeOnto_encoded, List.append_nil, List.reverse_reverse,
    String.ofList_toList]

/-- The strict reader takes the bytes of a string for that string. -/
theorem decode?_encode (s : String) : decode? (encode s) = some s := by
  have hbytes : (encode s).toByteArray = s.toByteArray := by
    rw [encode_eq, ← String.utf8Encode_toList]
    rfl
  unfold decode? String.fromUTF8?
  simp only [hbytes, String.isValidUTF8, dif_pos]
  rfl

/-- Characters below 128 are their own bytes. -/
theorem encode_ascii {cs : List Char} (h : ∀ c ∈ cs, c.toNat < 128) :
    encode (String.ofList cs) = cs.map fun c => UInt8.ofNat c.toNat := by
  rw [encode_eq, String.toList_ofList]
  induction cs with
  | nil => rfl
  | cons c cs ih =>
    have hone : String.utf8EncodeChar c = [UInt8.ofNat c.toNat] := by
      unfold String.utf8EncodeChar
      exact if_pos (Nat.le_of_lt_succ (h c List.mem_cons_self))
    rw [List.flatMap_cons, hone, ih fun c hc => h c (List.mem_cons_of_mem _ hc)]
    rfl

end Intranet.Utf8
