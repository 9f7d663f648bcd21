import Intranet.Proofs.Cookies
import Intranet.Proofs.Digits

/-!
# Which values are signed identifiers

A value is accepted as an identifier by taking it apart: at its first point, into digits of either
case, into the bytes they stand for. What is accepted that way is said in one line by putting it
together: up to capital letters it is what signing an identifier gives. The keyed hash may be any
function to 32 bytes.

* `Hex.decodeL?_eq_some_iff` — which digits stand for bytes;
* `Id.ofDigits?_eq_some_iff` — which digits stand for an identifier;
* `Signer.verifyL_eq_some_iff` — which values are accepted, and as what;
* `verify_exact` — and what follows for values that were tampered with.
-/

namespace Intranet

namespace Text

theorem lower_ofList (cs : List Char) :
    lower (String.ofList cs) = String.ofList (cs.map lowerChar) := by
  rw [lower, String.toList_ofList]

/-- A point is the small form of itself alone. -/
theorem lowerChar_eq_point {c : Char} : lowerChar c = '.' ↔ c = '.' := by
  constructor
  · intro h
    have hnat := toNat_lowerChar c
    rw [h] at hnat
    split at hnat
    · next hcapital =>
      have hlow : 0x41 ≤ c.toNat := hcapital.1
      have hpoint : '.'.toNat = 0x2E := rfl
      omega
    · exact (Char.toNat_inj.1 hnat).symm
  · rintro rfl
    rfl

end Text

namespace Hex

/-! ## Digits of either case -/

theorem toNat_digit {n : Nat} (hn : n < 16) :
    (digit n).toNat = if n < 10 then 48 + n else 87 + n := by
  have hall : ∀ k : Fin 16, (digit k).toNat = if k.val < 10 then 48 + k.val else 87 + k.val := by
    decide
  exact hall ⟨n, hn⟩

/-- The value of a character is the one whose digit is its small form. -/
theorem value?_eq_some_iff {c : Char} {n : Nat} :
    value? c = some n ↔ n < 16 ∧ Text.lowerChar c = digit n := by
  have hle (a b : Char) : a ≤ b ↔ a.toNat ≤ b.toNat := Iff.rfl
  have hnat : value? c = some n ↔
      n < 16 ∧ (Text.lowerChar c).toNat = if n < 10 then 48 + n else 87 + n := by
    rw [Text.toNat_lowerChar]
    simp only [value?, hle, Char.reduceToNat]
    split_ifs <;> grind
  rw [hnat]
  refine and_congr_right fun hn => ?_
  rw [← toNat_digit hn, Char.toNat_inj]

theorem isDigit_iff {c : Char} : isDigit c = true ↔ ∃ n < 16, Text.lowerChar c = digit n := by
  rw [isDigit, Option.isSome_iff_exists]
  exact exists_congr fun n => value?_eq_some_iff

theorem lowerChar_digit {n : Nat} (hn : n < 16) : Text.lowerChar (digit n) = digit n :=
  (value?_eq_some_iff.1 (value?_digit hn)).2

/-- Digits as they are written are in small letters. -/
theorem map_lowerChar {cs : List Char} (h : ∀ c ∈ cs, ∃ n < 16, c = digit n) :
    cs.map Text.lowerChar = cs := by
  rw [List.map_congr_left (g := fun c => c) ?_, List.map_id']
  intro c hc
  obtain ⟨n, hn, rfl⟩ := h c hc
  exact lowerChar_digit hn

/-! ## Bytes -/

theorem encodeL_nil : encodeL [] = [] := rfl

theorem encodeL_cons (b : UInt8) (bytes : List UInt8) :
    encodeL (b :: bytes) = digit (b.toNat / 16) :: digit (b.toNat % 16) :: encodeL bytes := rfl

/-- Digits of either case stand for bytes when in small letters they are what the bytes are written
as. -/
theorem decodeL?_eq_some_iff {cs : List Char} {bytes : List UInt8} :
    decodeL? cs = some bytes ↔ cs.map Text.lowerChar = encodeL bytes := by
  induction cs using decodeL?.induct generalizing bytes with
  | case1 => cases bytes <;> simp [decodeL?, encodeL_nil, encodeL_cons]
  | case2 c => cases bytes <;> simp [decodeL?, encodeL_nil, encodeL_cons]
  | case3 a b rest ih =>
    simp only [decodeL?, Option.bind_eq_bind, Option.bind_eq_some_iff, value?_eq_some_iff,
      List.map_cons]
    constructor
    · rintro ⟨high, ⟨hhigh, ha⟩, low, ⟨hlow, hb⟩, more, hmore, hbytes⟩
      cases hbytes
      have hnat : (UInt8.ofNat (high * 16 + low)).toNat = high * 16 + low := by
        rw [UInt8.toNat_ofNat']
        exact Nat.mod_eq_of_lt (by omega)
      rw [encodeL_cons, ha, hb, ih.1 hmore, hnat, show (high * 16 + low) / 16 = high by omega,
        show (high * 16 + low) % 16 = low by omega]
    · intro h
      cases bytes with
      | nil => cases h
      | cons byte more =>
        have hlt := byte.toNat_lt
        rw [encodeL_cons] at h
        obtain ⟨ha, h⟩ := List.cons.inj h
        obtain ⟨hb, hmore⟩ := List.cons.inj h
        refine ⟨_, ⟨by omega, ha⟩, _, ⟨by omega, hb⟩, more, ih.2 hmore, ?_⟩
        rw [show byte.toNat / 16 * 16 + byte.toNat % 16 = byte.toNat by omega, UInt8.ofNat_toNat]
        rfl

end Hex

namespace Session

/-! ## Identifiers -/

/-- An identifier of 32 hexadecimal digits, none of them a capital letter. -/
def Id.IsCanonical (id : Id) : Prop :=
  id.text.length = 32 ∧ ∀ c ∈ id.text.toList, '0' ≤ c ∧ c ≤ '9' ∨ 'a' ≤ c ∧ c ≤ 'f'

/-- The characters of an identifier are the digits of numbers below sixteen. -/
theorem isSmallDigit_iff {c : Char} :
    '0' ≤ c ∧ c ≤ '9' ∨ 'a' ≤ c ∧ c ≤ 'f' ↔ ∃ n < 16, c = Hex.digit n := by
  constructor
  · intro h
    have hvalue : (Hex.value? c).isSome = true := by
      rcases h with h | h
      · simp [Hex.value?, h]
      · simp only [Hex.value?, h, and_self, if_true]
        split <;> rfl
    obtain ⟨n, hn, hdigit⟩ := Hex.isDigit_iff.1 hvalue
    refine ⟨n, hn, ?_⟩
    rw [← hdigit, Text.lowerChar, if_neg]
    rintro ⟨hlow, hhigh⟩
    have hlow : 0x41 ≤ c.toNat := hlow
    have hhigh : c.toNat ≤ 0x5A := hhigh
    rcases h with ⟨-, h⟩ | ⟨h, -⟩
    · have h : c.toNat ≤ 0x39 := h
      omega
    · have h : 0x61 ≤ c.toNat := h
      omega
  · rintro ⟨n, hn, rfl⟩
    have hall : ∀ k : Fin 16,
        '0' ≤ Hex.digit k ∧ Hex.digit k ≤ '9' ∨ 'a' ≤ Hex.digit k ∧ Hex.digit k ≤ 'f' := by decide
    exact hall ⟨n, hn⟩

theorem Id.IsCanonical.map_lowerChar {id : Id} (h : id.IsCanonical) :
    id.text.toList.map Text.lowerChar = id.text.toList :=
  Hex.map_lowerChar fun c hc => isSmallDigit_iff.1 (h.2 c hc)

/-- An identifier has no point in it. -/
theorem Id.IsCanonical.point_notMem {id : Id} (h : id.IsCanonical) : '.' ∉ id.text.toList :=
  fun hmem => absurd (h.2 _ hmem) (by decide)

/-- Digits of either case stand for the identifier that they are in small letters. -/
theorem Id.ofDigits?_eq_some_iff {cs : List Char} {id : Id} :
    Id.ofDigits? cs = some id ↔ id.IsCanonical ∧ cs.map Text.lowerChar = id.text.toList := by
  have hdigits : Id.isDigits cs = true ↔
      cs.length = 32 ∧ ∀ c ∈ cs, ∃ n < 16, Text.lowerChar c = Hex.digit n := by
    simp only [Id.isDigits, Bool.and_eq_true, decide_eq_true_eq, List.all_eq_true, Hex.isDigit_iff]
  rw [Id.ofDigits?, Option.ite_none_right_eq_some, hdigits, Option.some.injEq]
  constructor
  · rintro ⟨⟨hlength, hall⟩, rfl⟩
    refine ⟨⟨?_, fun c hc => ?_⟩, String.toList_ofList.symm⟩
    · rw [String.length_ofList, List.length_map, hlength]
    · rw [String.toList_ofList] at hc
      obtain ⟨d, hd, rfl⟩ := List.mem_map.1 hc
      exact isSmallDigit_iff.2 (hall d hd)
  · rintro ⟨⟨hlength, hall⟩, hmap⟩
    refine ⟨⟨?_, fun c hc => ?_⟩, ?_⟩
    · rw [← List.length_map Text.lowerChar, hmap, String.length_toList, hlength]
    · exact isSmallDigit_iff.1 (hall _ (hmap ▸ List.mem_map_of_mem hc))
    · rw [hmap, String.ofList_toList]

/-! ## Signed identifiers -/

namespace Signer

variable {s : Signer}

theorem splitAtPoint?_eq_some_iff {cs before after : List Char} :
    splitAtPoint? cs = some (before, after) ↔ cs = before ++ '.' :: after ∧ '.' ∉ before := by
  induction cs generalizing before with
  | nil => simp [splitAtPoint?]
  | cons c rest ih =>
    rw [splitAtPoint?]
    by_cases hc : c = '.'
    · subst hc
      cases before with
      | nil => simp [eq_comm]
      | cons d before =>
        simp only [if_true, Option.some.injEq, Prod.mk.injEq, List.nil_eq, reduceCtorEq, false_and,
          List.cons_append, List.cons.injEq, List.mem_cons, not_or, false_iff, not_and]
        rintro ⟨rfl, -⟩ hne
        exact absurd rfl hne
    · rw [if_neg hc, Option.map_eq_some_iff]
      constructor
      · rintro ⟨⟨before', after'⟩, h, heq⟩
        cases heq
        obtain ⟨rfl, hmem⟩ := ih.1 h
        exact ⟨rfl, by simp [hmem, Ne.symm hc]⟩
      · rintro ⟨h, hmem⟩
        cases before with
        | nil => exact absurd (List.cons.inj h).1 hc
        | cons d before =>
          obtain ⟨rfl, rfl⟩ := List.cons.inj h
          rw [List.mem_cons, not_or] at hmem
          exact ⟨(before, after), ih.2 ⟨rfl, hmem.2⟩, rfl⟩

/-- A value is accepted as the identifier of which it is, in small letters, the signed form. -/
theorem verifyL_eq_some_iff {v : List Char} {id : Id} :
    s.verifyL v = some id ↔ id.IsCanonical ∧ v.map Text.lowerChar = s.signL id := by
  simp only [verifyL, Option.bind_eq_bind, Option.bind_eq_some_iff, Prod.exists,
    splitAtPoint?_eq_some_iff, Id.ofDigits?_eq_some_iff, Hex.decodeL?_eq_some_iff,
    Option.ite_none_right_eq_some, Option.some.injEq]
  constructor
  · rintro ⟨before, after, ⟨rfl, -⟩, _, ⟨hcanonical, hbefore⟩, _, hafter, rfl, rfl⟩
    refine ⟨hcanonical, ?_⟩
    rw [List.map_append, List.map_cons, hbefore, hafter]
    rfl
  · rintro ⟨hcanonical, hmap⟩
    obtain ⟨before, behind, rfl, hbefore, hbehind⟩ := List.map_eq_append_iff.1 hmap
    obtain ⟨point, after, rfl, hpoint, hafter⟩ := List.map_eq_cons_iff.1 hbehind
    obtain rfl := Text.lowerChar_eq_point.1 hpoint
    refine ⟨before, after, ⟨rfl, fun hmem => ?_⟩, id, ⟨hcanonical, hbefore⟩, _, hafter, rfl, rfl⟩
    -- a point before the first one would be a point in the identifier
    exact hcanonical.point_notMem (hbefore ▸ List.mem_map_of_mem (f := Text.lowerChar) hmem)

/-- A signed identifier is read as that identifier. -/
theorem verifyL_signL (s : Signer) {id : Id} (h : id.IsCanonical) :
    s.verifyL (s.signL id) = some id := by
  refine verifyL_eq_some_iff.2 ⟨h, ?_⟩
  rw [signL, List.map_append, List.map_cons, h.map_lowerChar,
    Hex.map_lowerChar fun c hc => exists_of_mem_encodeL hc]
  rfl

theorem verify_eq_some_iff {v : String} {id : Id} :
    s.verify v = some id ↔ id.IsCanonical ∧ Text.lower v = s.sign id := by
  rw [verify, verifyL_eq_some_iff, Text.lower, sign, String.ofList_inj]

/-- What is accepted has 32 digits, a point and 64 more digits. -/
theorem form_of_verifyL {v : List Char} {id : Id} (h : s.verifyL v = some id) :
    v.length = 97 ∧ ∀ i c, v[i]? = some c → if i = 32 then c = '.' else Hex.isDigit c = true := by
  obtain ⟨⟨hlength, hall⟩, hmap⟩ := verifyL_eq_some_iff.1 h
  rw [← String.length_toList] at hlength
  refine ⟨?_, fun i c hc => ?_⟩
  · rw [← List.length_map Text.lowerChar, hmap, length_signL, hlength]
  have hlower : (s.signL id)[i]? = some (Text.lowerChar c) := by
    rw [← hmap, List.getElem?_map, hc, Option.map_some]
  have hdigit
      (hmem : Text.lowerChar c ∈ id.text.toList ∨ Text.lowerChar c ∈ Hex.encodeL (s.macOf id)) :
      Hex.isDigit c = true :=
    Hex.isDigit_iff.2 (hmem.elim (fun hc => isSmallDigit_iff.1 (hall _ hc)) exists_of_mem_encodeL)
  rw [signL] at hlower
  split
  · next hi =>
    subst hi
    rw [List.getElem?_append_right (Nat.le_of_eq hlength), hlength] at hlower
    exact Text.lowerChar_eq_point.1 (Option.some.inj hlower).symm
  · next hi =>
    rcases Nat.lt_or_gt_of_ne hi with hi | hi
    · rw [List.getElem?_append_left (hlength ▸ hi)] at hlower
      exact hdigit (.inl (List.mem_of_getElem? hlower))
    · obtain ⟨j, rfl⟩ := Nat.exists_eq_add_of_lt hi
      rw [List.getElem?_append_right (by omega), hlength, show 32 + j + 1 - 32 = j + 1 by omega,
        List.getElem?_cons_succ] at hlower
      exact hdigit (.inr (List.mem_of_getElem? hlower))

/-- A signer accepts what it signed, in letters of either case, and nothing else. -/
structure IsExact (s : Signer) : Prop where
  accepted : ∀ {v id}, s.verify v = some id ↔ id.IsCanonical ∧ Text.lower v = s.sign id
  signed : ∀ {id}, id.IsCanonical → s.verify (s.sign id) = some id
  /-- No value is the signed form of two identifiers. -/
  single : ∀ {v x y}, Text.lower v = s.sign x → Text.lower v = s.sign y → x = y
  /-- A value that was cut, or to which something was added, is not accepted. -/
  length : ∀ {v}, v.length ≠ 97 → s.verify v = none
  /-- Nor is one whose point stands elsewhere, or is not there. -/
  point : ∀ {v}, v.toList[32]? ≠ some '.' → s.verify v = none
  /-- Nor is one with a second point, or anything else but digits around the first. -/
  digits : ∀ {v i c}, v.toList[i]? = some c → i ≠ 32 → Hex.isDigit c = false → s.verify v = none

end Signer

/-- **Exactly what was signed is accepted,** whatever function to 32 bytes the keyed hash is. -/
theorem verify_exact (s : Signer) : s.IsExact where
  accepted := Signer.verify_eq_some_iff
  signed := by
    intro id h
    rw [Signer.verify, Signer.sign, String.toList_ofList]
    exact s.verifyL_signL h
  single := by
    intro v x y hx hy
    exact Signer.signL_injective (String.ofList_inj.1 (hx.symm.trans hy))
  length := by
    intro v hv
    refine Option.eq_none_iff_forall_ne_some.2 fun id h => hv ?_
    rw [← String.length_toList]
    exact (Signer.form_of_verifyL h).1
  point := by
    intro v hv
    refine Option.eq_none_iff_forall_ne_some.2 fun id h => hv ?_
    obtain ⟨hlength, hform⟩ := Signer.form_of_verifyL h
    have hlt : 32 < v.toList.length := by omega
    rw [List.getElem?_eq_getElem hlt]
    exact congrArg some (hform 32 _ (List.getElem?_eq_getElem hlt))
  digits := by
    intro v i c hc hi hdigit
    refine Option.eq_none_iff_forall_ne_some.2 fun id h => ?_
    have hform := (Signer.form_of_verifyL h).2 i c hc
    rw [if_neg hi, hdigit] at hform
    cases hform

/-- A signer for whom the keyed hash of everything is zero. -/
def Signer.ofZero : Signer := ⟨fun _ => List.replicate 32 0, fun _ => rfl⟩

/-- The signed form of an identifier in capital letters, with so many digits of its hash. -/
def capitalForm (digits : Nat) : List Char :=
  "0123456789ABCDEF0123456789ABCDEF.".toList ++ List.replicate digits '0'

/-- Capital letters are accepted, and stand for small ones; with one digit less the value is
not. -/
theorem verify_exact_capitals :
    Signer.ofZero.verify (String.ofList (capitalForm 64)) =
      some ⟨"0123456789abcdef0123456789abcdef"⟩ ∧
      Signer.ofZero.verify (String.ofList (capitalForm 63)) = none := by
  have hlower : (capitalForm 64).map Text.lowerChar =
      Signer.ofZero.signL ⟨"0123456789abcdef0123456789abcdef"⟩ := by decide
  have hshort : (capitalForm 63).length ≠ 97 := by decide
  have hdigits : ("0123456789abcdef0123456789abcdef".toList.all
      fun c => '0' ≤ c ∧ c ≤ '9' ∨ 'a' ≤ c ∧ c ≤ 'f') = true := by decide
  have hcanonical : Id.IsCanonical ⟨"0123456789abcdef0123456789abcdef"⟩ :=
    ⟨by decide, fun c hc => of_decide_eq_true (List.all_eq_true.1 hdigits c hc)⟩
  refine ⟨(verify_exact Signer.ofZero).accepted.2 ⟨hcanonical, ?_⟩,
    (verify_exact Signer.ofZero).length ?_⟩
  · exact (Text.lower_ofList _).trans (congrArg String.ofList hlower)
  · rwa [String.length_ofList]

end Session

end Intranet
