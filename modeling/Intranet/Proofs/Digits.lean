import Intranet.Number.Bounded
import Intranet.Text.Blank
import Intranet.Text.Hex

/-!
# Digits are read back

A number is read from its digits, to the base ten and to the base sixteen, also behind zeros that
fill them up to a width.

* `Decimal.natOnto_toDigits` — what the decimal digits of a number stand for;
* `Decimal.bounded_eq_ok_iff` — which texts are numbers within a bound;
* `Hex.value?_digit` — the value of a hexadecimal digit;
* `Hex.natL?_ofNat`, `Hex.length_ofNat`, `Hex.exists_of_mem_ofNat` — the hexadecimal digits of a
  number, what they stand for, how many and which they are.
-/

namespace Intranet

namespace Decimal

theorem isDigit_of_mem_toDigits {n : Nat} {c : Char} (h : c ∈ Nat.toDigits 10 n) :
    isDigit c = true := by
  have hdigit := Nat.isDigit_of_mem_toDigits (by decide) (by decide) h
  simpa [Char.isDigit, isDigit, Char.le_def] using hdigit

theorem isBlank_of_isDigit {c : Char} (h : isDigit c = true) : Text.isBlank c = false := by
  simp only [isDigit, Bool.and_eq_true, decide_eq_true_eq, Char.le_def, UInt32.le_iff_toNat_le]
    at h
  have hlow : 48 ≤ c.toNat := h.1
  have hhigh : c.toNat ≤ 57 := h.2
  simp only [Text.isBlank, Bool.or_eq_false_iff, Bool.and_eq_false_iff, decide_eq_false_iff_not]
  omega

theorem natOnto_toDigits (n : Nat) : natOnto 0 (Nat.toDigits 10 n) = n := by
  have hfold : ∀ (m : Nat) (cs : List Char), natOnto m cs = Nat.ofDigitChars 10 cs m := by
    intro m cs
    unfold natOnto
    rw [Nat.ofDigitChars_eq_foldl]
    congr
    funext k c
    rw [Nat.mul_comm]
    rfl
  rw [hfold, Nat.ofDigitChars_ten_toDigits]

/-- Digits that follow make a number no smaller. -/
theorem le_natOnto (n : Nat) (cs : List Char) : n ≤ natOnto n cs := by
  induction cs generalizing n with
  | nil => exact Nat.le_refl n
  | cons c rest ih => exact Nat.le_trans (by omega) (ih (n * 10 + digitValue c))

/-- Digits make nothing of nothing when each of them is a zero. -/
theorem natOnto_eq_zero_iff {cs : List Char} (hdigits : ∀ c ∈ cs, isDigit c = true) :
    natOnto 0 cs = 0 ↔ ∀ c ∈ cs, c = '0' := by
  induction cs with
  | nil => simp [natOnto]
  | cons c rest ih =>
    obtain ⟨hc, hrest⟩ := List.forall_mem_cons.1 hdigits
    have hvalue : digitValue c = 0 ↔ c = '0' := by
      simp only [isDigit, Bool.and_eq_true, decide_eq_true_eq] at hc
      have hlow : 48 ≤ c.toNat := hc.1
      rw [digitValue, ← Char.toNat_inj, show ('0' : Char).toNat = 48 from rfl]
      omega
    have hcons : natOnto 0 (c :: rest) = natOnto (digitValue c) rest := by
      rw [natOnto, List.foldl_cons, Nat.zero_mul, Nat.zero_add]
      rfl
    rw [hcons, List.forall_mem_cons, ← hvalue]
    constructor
    · intro hzero
      have hhead : digitValue c = 0 := Nat.le_zero.1 (hzero ▸ le_natOnto (digitValue c) rest)
      rw [hhead] at hzero
      exact ⟨hhead, (ih hrest).1 hzero⟩
    · rintro ⟨hhead, hzeros⟩
      rw [hhead]
      exact (ih hrest).2 hzeros

/-- Within a bound, only digits are read on, and as what they stand for. -/
theorem boundedOnto_eq_ok_iff {bound n m : Nat} {cs : List Char} (hn : n ≤ bound) :
    boundedOnto bound n cs = .ok m ↔
      (∀ c ∈ cs, isDigit c = true) ∧ natOnto n cs = m ∧ m ≤ bound := by
  induction cs generalizing n with
  | nil =>
    rw [boundedOnto, Except.ok.injEq]
    constructor
    · rintro rfl
      exact ⟨by simp, rfl, hn⟩
    · exact fun h => h.2.1
  | cons c rest ih =>
    have hcons : natOnto n (c :: rest) = natOnto (n * 10 + digitValue c) rest := rfl
    rw [boundedOnto, List.forall_mem_cons, hcons]
    cases hc : isDigit c with
    | false => simp
    | true =>
      by_cases hstep : n * 10 + digitValue c ≤ bound
      · simp [hstep, ih hstep]
      · have hlarge := le_natOnto (n * 10 + digitValue c) rest
        simp only [Bool.not_true, Bool.false_eq_true, if_false, if_neg hstep,
          reduceCtorEq, false_iff]
        omega

/-- A number within a bound is written with at least one digit, and with nothing else but a plus
sign in front. -/
theorem bounded_eq_ok_iff {bound m : Nat} {cs : List Char} :
    bounded bound cs = .ok m ↔
      ∃ digits, (cs = digits ∨ cs = '+' :: digits) ∧ digits ≠ [] ∧
        (∀ c ∈ digits, isDigit c = true) ∧ natOnto 0 digits = m ∧ m ≤ bound := by
  have hsign : isDigit '+' = false := by decide
  unfold bounded
  split
  · simp
  · simp [hsign]
  · next rest hrest =>
    rw [boundedOnto_eq_ok_iff (Nat.zero_le bound)]
    constructor
    · intro h
      exact ⟨rest, .inr rfl, fun hnil => hrest (by rw [hnil]), h⟩
    · rintro ⟨digits, rfl | hdigits, -, h⟩
      · exact absurd (h.1 '+' List.mem_cons_self) (by simp [hsign])
      · cases hdigits
        exact h
  · next hne _ hplus =>
    rw [boundedOnto_eq_ok_iff (Nat.zero_le bound)]
    constructor
    · exact fun h => ⟨cs, .inl rfl, hne, h⟩
    · rintro ⟨digits, rfl | rfl, -, h⟩
      · exact h
      · exact absurd rfl (hplus digits)

end Decimal

namespace Hex

theorem value?_digit {n : Nat} (h : n < 16) : value? (digit n) = some n := by
  have hall : ∀ k : Fin 16, value? (digit k) = some k.val := by decide
  exact hall ⟨n, h⟩

/-- One more digit of a number that is being read. -/
def shift (n : Nat) (c : Char) : Option Nat := (value? c).map (n * 16 + ·)

theorem digitChar_eq {n : Nat} (h : n < 16) : Nat.digitChar n = digit n := by
  have hall : ∀ k : Fin 16, Nat.digitChar k = digit k := by decide
  exact hall ⟨n, h⟩

/-- The digits of a number: those of its sixteenth, and its last one. -/
theorem toDigits_eq {n : Nat} (h : 16 ≤ n) :
    Nat.toDigits 16 n = Nat.toDigits 16 (n / 16) ++ [digit (n % 16)] := by
  have hlast : Nat.toDigits 16 (n % 16) = [digit (n % 16)] := by
    rw [Nat.toDigits_of_lt_base (Nat.mod_lt n (by decide)),
      digitChar_eq (Nat.mod_lt n (by decide))]
  rw [← hlast, Nat.toDigits_append_toDigits (by decide) (by omega) (Nat.mod_lt n (by decide)),
    Nat.div_add_mod]

theorem toDigits_of_lt {n : Nat} (h : n < 16) : Nat.toDigits 16 n = [digit n] := by
  rw [Nat.toDigits_of_lt_base h, digitChar_eq h]

theorem exists_of_mem_toDigits {n : Nat} {c : Char} (hc : c ∈ Nat.toDigits 16 n) :
    ∃ k < 16, c = digit k := by
  induction n using Nat.strongRecOn with
  | ind n ih =>
    by_cases h : n < 16
    · rw [toDigits_of_lt h, List.mem_singleton] at hc
      exact ⟨n, h, hc⟩
    · rw [toDigits_eq (Nat.le_of_not_lt h), List.mem_append, List.mem_singleton] at hc
      rcases hc with hc | hc
      · exact ih (n / 16) (by omega) hc
      · exact ⟨n % 16, Nat.mod_lt n (by decide), hc⟩

theorem foldlM_toDigits (n : Nat) : (Nat.toDigits 16 n).foldlM shift 0 = some n := by
  induction n using Nat.strongRecOn with
  | ind n ih =>
    by_cases h : n < 16
    · rw [toDigits_of_lt h]
      simp [shift, value?_digit h]
    · have hmod : n % 16 < 16 := Nat.mod_lt n (by decide)
      rw [toDigits_eq (Nat.le_of_not_lt h), List.foldlM_append, ih (n / 16) (by omega)]
      simp only [Option.bind_eq_bind, Option.bind_some, List.foldlM_cons, List.foldlM_nil, shift,
        value?_digit hmod, Option.map_some]
      exact congrArg some (by omega)

theorem foldlM_replicate_zero (k : Nat) : (List.replicate k '0').foldlM shift 0 = some 0 := by
  induction k with
  | zero => rfl
  | succ k ih => exact ih

/-- A number is read from its digits, however many zeros stand before them. -/
theorem natL?_ofNat (width n : Nat) : natL? (ofNat width n).toList = some n := by
  have hne : List.replicate (width - (Nat.toDigits 16 n).length) '0' ++ Nat.toDigits 16 n ≠ [] :=
    List.append_ne_nil_of_right_ne_nil _ Nat.toDigits_ne_nil
  rw [ofNat, String.toList_ofList]
  have hfold := foldlM_toDigits n
  unfold natL?
  split
  · next h => exact absurd h hne
  · show List.foldlM shift 0 _ = _
    rw [List.foldlM_append, foldlM_replicate_zero]
    exact hfold

theorem length_ofNat {width n : Nat} (hwidth : 0 < width) (hn : n < Nat.pow 16 width) :
    (ofNat width n).toList.length = width := by
  have hlength := (Nat.length_toDigits_le_iff (show 1 < 16 by decide) hwidth).2 hn
  rw [ofNat, String.toList_ofList, List.length_append, List.length_replicate]
  omega

/-- Numbers are written in small digits. -/
theorem exists_of_mem_ofNat {width n : Nat} {c : Char} (hc : c ∈ (ofNat width n).toList) :
    ∃ k < 16, c = digit k := by
  rw [ofNat, String.toList_ofList, List.mem_append] at hc
  rcases hc with hc | hc
  · exact ⟨0, by decide, List.eq_of_mem_replicate hc⟩
  · exact exists_of_mem_toDigits hc

theorem isDigit_of_mem_ofNat {width n : Nat} {c : Char} (hc : c ∈ (ofNat width n).toList) :
    isDigit c = true := by
  obtain ⟨k, hk, rfl⟩ := exists_of_mem_ofNat hc
  rw [isDigit, value?_digit hk]
  rfl

end Hex

end Intranet
