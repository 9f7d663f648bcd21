import Intranet.Text.Base64

/-!
# Base64, there and back

What encoding makes of bytes is read back as these bytes. Encoder and decoder go over three bytes
or four characters at a time, so the proof is an induction over groups of three bytes with two
kinds of remainders.

Main result: `decode?_encode`.
-/

namespace Intranet.Base64

/-! ## Digits -/

/-- A digit stands for its number. -/
theorem value?_digit {n : Nat} (h : n < 64) : value? (digit n) = some n := by
  have hall : ∀ i : Fin 64, value? (digit i) = some i.val := by decide
  exact hall ⟨n, h⟩

/-- A digit is not what groups are filled up with. -/
theorem digit_ne_equals {n : Nat} (h : n < 64) : digit n ≠ '=' := by
  have hall : ∀ i : Fin 64, digit i ≠ '=' := by decide
  exact hall ⟨n, h⟩

/-! ## Groups -/

/-- The encoder leaves what is already made as it is. -/
theorem encodeOnto_eq (done : List Char) (bytes : List UInt8) :
    encodeOnto done bytes = encodeOnto [] bytes ++ done := by
  match bytes with
  | [] => rfl
  | [a] => rfl
  | [a, b] => rfl
  | a :: b :: c :: rest =>
    rw [encodeOnto, encodeOnto, encodeOnto_eq (_ :: _ :: _ :: _ :: done) rest,
      encodeOnto_eq [_, _, _, _] rest, List.append_assoc]
    rfl

/-- Three bytes make four digits. -/
theorem encodeL_group (a b c : UInt8) (rest : List UInt8) :
    encodeL (a :: b :: c :: rest) =
      let n := a.toNat * 65536 + b.toNat * 256 + c.toNat
      digit (n / 262144) :: digit (n / 4096 % 64) :: digit (n / 64 % 64) :: digit (n % 64) ::
        encodeL rest := by
  rw [encodeL, encodeOnto, encodeOnto_eq]
  simp [encodeL]

/-- Four digits are read as three bytes. -/
theorem decodeOnto_group {a b c d : Char} {w x y z : Nat} (ha : value? a = some w)
    (hb : value? b = some x) (hc : value? c = some y) (hd : value? d = some z) (hne : d ≠ '=')
    (done : List UInt8) (rest : List Char) :
    decodeOnto done (a :: b :: c :: d :: rest) =
      let n := ((w * 64 + x) * 64 + y) * 64 + z
      decodeOnto
        (UInt8.ofNat (n % 256) :: UInt8.ofNat (n / 256 % 256) :: UInt8.ofNat (n / 65536) :: done)
        rest := by
  rw [decodeOnto]
  · simp [ha, hb, hc, hd]
  · intro _ hd
    exact absurd hd hne
  · intro hd
    exact absurd hd hne

/-- Two digits are read as one byte. -/
theorem decodeOnto_two {a b : Char} {w x : Nat} (ha : value? a = some w) (hb : value? b = some x)
    (hzero : (w * 64 + x) % 16 = 0) (done : List UInt8) :
    decodeOnto done [a, b, '=', '='] = some (UInt8.ofNat ((w * 64 + x) / 16) :: done) := by
  rw [decodeOnto]
  simp only [ha, hb, Option.bind_eq_bind, Option.bind_some, if_pos hzero]

/-- Three digits are read as two bytes. -/
theorem decodeOnto_three {a b c : Char} {w x y : Nat} (ha : value? a = some w)
    (hb : value? b = some x) (hc : value? c = some y) (hne : c ≠ '=')
    (hzero : ((w * 64 + x) * 64 + y) % 4 = 0) (done : List UInt8) :
    decodeOnto done [a, b, c, '='] =
      some (UInt8.ofNat (((w * 64 + x) * 64 + y) / 4 % 256) ::
        UInt8.ofNat (((w * 64 + x) * 64 + y) / 1024) :: done) := by
  rw [decodeOnto]
  · simp only [ha, hb, hc, Option.bind_eq_bind, Option.bind_some, if_pos hzero]
  · intro hc
    exact absurd hc hne

/-- Whatever bytes were read before, an encoding adds its own. -/
theorem decodeOnto_encodeL (done bytes : List UInt8) :
    decodeOnto done (encodeL bytes) = some (bytes.reverse ++ done) := by
  match bytes with
  | [] => rfl
  | [a] =>
    have ha := a.toNat_lt
    have hbyte : (a.toNat / 4 * 64 + a.toNat % 4 * 16) / 16 = a.toNat := by omega
    have hread := decodeOnto_two (value?_digit (n := a.toNat / 4) (by omega))
      (value?_digit (n := a.toNat % 4 * 16) (by omega)) (by omega) done
    rw [hbyte, UInt8.ofNat_toNat] at hread
    exact hread
  | [a, b] =>
    have ha := a.toNat_lt
    have hb := b.toNat_lt
    generalize hn : a.toNat * 256 + b.toNat = n
    have hlt : n < 65536 := by omega
    have hall : (n / 1024 * 64 + n / 16 % 64) * 64 + n % 16 * 4 = n * 4 := by omega
    have hlow : n * 4 / 4 % 256 = b.toNat := by omega
    have hhigh : n * 4 / 1024 = a.toNat := by omega
    have hread := decodeOnto_three (value?_digit (n := n / 1024) (by omega))
      (value?_digit (n := n / 16 % 64) (by omega)) (value?_digit (n := n % 16 * 4) (by omega))
      (digit_ne_equals (by omega)) (by omega) done
    rw [hall, hlow, hhigh, UInt8.ofNat_toNat, UInt8.ofNat_toNat] at hread
    have hencode : encodeL [a, b] =
        [digit (n / 1024), digit (n / 16 % 64), digit (n % 16 * 4), '='] := by
      rw [← hn]
      rfl
    rw [hencode, hread]
    rfl
  | a :: b :: c :: rest =>
    have ha := a.toNat_lt
    have hb := b.toNat_lt
    have hc := c.toNat_lt
    rw [encodeL_group]
    generalize hn : a.toNat * 65536 + b.toNat * 256 + c.toNat = n
    have hlt : n < 16777216 := by omega
    have hall :
        ((n / 262144 * 64 + n / 4096 % 64) * 64 + n / 64 % 64) * 64 + n % 64 = n := by omega
    have hlow : n % 256 = c.toNat := by omega
    have hmiddle : n / 256 % 256 = b.toNat := by omega
    have hhigh : n / 65536 = a.toNat := by omega
    dsimp only
    rw [decodeOnto_group (value?_digit (by omega)) (value?_digit (by omega))
      (value?_digit (by omega)) (value?_digit (by omega)) (digit_ne_equals (by omega)),
      decodeOnto_encodeL, hall, hlow, hmiddle, hhigh, UInt8.ofNat_toNat, UInt8.ofNat_toNat,
      UInt8.ofNat_toNat]
    simp

/-- **There and back.** -/
theorem decode?_encode (bytes : List UInt8) : decode? (encode bytes) = some bytes := by
  rw [decode?, encode, String.toList_ofList, decodeL?, decodeOnto_encodeL]
  simp

end Intranet.Base64
