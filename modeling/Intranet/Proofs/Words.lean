import Intranet.Number.Word
import Intranet.Proofs.Digits

/-!
# Numerals of 64 bits

What a numeral is read as with words, whose steps may overflow, is what its digits stand for in the
integers. However many digits there are, an overflow on the way is only met where the whole numeral
is out of bounds, since more digits never lead back towards zero.

* `Word.checked_eq_some_iff` — a checked operation gives the integer that it is meant to give, or
  nothing;
* `Decimal.digitOnto_eq_some_iff` — the step by one digit;
* `Decimal.wordOnto_eq_some_iff` — all steps, with the number of the digits read so far as the
  invariant;
* `Decimal.int64L?_eq_some_iff` — whole numerals: what they stand for, if 64 bits hold it.
-/

namespace Intranet

namespace Word

variable {a b v : Int64} {n : Int}

/-- The integers that words stand for. -/
theorem exists_toInt_iff :
    (∃ w : Int64, w.toInt = n) ↔ -9223372036854775808 ≤ n ∧ n ≤ 9223372036854775807 := by
  constructor
  · rintro ⟨w, rfl⟩
    have hlow := w.le_toInt
    have hhigh := w.toInt_lt
    omega
  · rintro ⟨hlow, hhigh⟩
    exact ⟨Int64.ofInt n, Int64.toInt_ofInt_of_le (by omega) (by omega)⟩

/-- An operation is checked rightly if it is exact where it does not overflow, and no word is its
result where it does. -/
theorem checked_eq_some_iff {overflows : BitVec 64 → BitVec 64 → Bool} {op : Int64 → Int64 → Int64}
    (hover : overflows a.toBitVec b.toBitVec = true → ∀ w : Int64, w.toInt ≠ n)
    (hexact : ¬overflows a.toBitVec b.toBitVec = true → (op a b).toInt = n) :
    checked overflows op a b = some v ↔ v.toInt = n := by
  unfold checked
  split
  · next h => exact ⟨nofun, fun hv => absurd hv (hover h v)⟩
  · next h =>
    rw [Option.some.injEq, ← hexact h, Int64.toInt_inj]
    exact eq_comm

theorem add?_eq_some_iff : add? a b = some v ↔ v.toInt = a.toInt + b.toInt := by
  apply checked_eq_some_iff
  · intro h w
    have hlow := w.le_toInt
    have hhigh := w.toInt_lt
    simp only [BitVec.saddOverflow, Bool.or_eq_true, decide_eq_true_eq, Int64.toInt_toBitVec] at h
    omega
  · intro h
    exact BitVec.toInt_add_of_not_saddOverflow h

theorem sub?_eq_some_iff : sub? a b = some v ↔ v.toInt = a.toInt - b.toInt := by
  apply checked_eq_some_iff
  · intro h w
    have hlow := w.le_toInt
    have hhigh := w.toInt_lt
    simp only [BitVec.ssubOverflow, Bool.or_eq_true, decide_eq_true_eq, Int64.toInt_toBitVec] at h
    omega
  · intro h
    exact BitVec.toInt_sub_of_not_ssubOverflow h

theorem mul?_eq_some_iff : mul? a b = some v ↔ v.toInt = a.toInt * b.toInt := by
  apply checked_eq_some_iff
  · intro h w
    have hlow := w.le_toInt
    have hhigh := w.toInt_lt
    simp only [BitVec.smulOverflow, Bool.or_eq_true, decide_eq_true_eq, Int64.toInt_toBitVec] at h
    omega
  · intro h
    exact BitVec.toInt_mul_of_not_smulOverflow h

end Word

namespace Decimal

/-- A number on one side of zero. -/
def signed (negative : Bool) (n : Nat) : Int := if negative then -n else n

variable {negative : Bool} {w v digit : Int64} {m n : Nat} {cs : List Char}

/-- What is nearer to zero than a word is a word. -/
theorem exists_toInt_signed (hle : m ≤ n) (hv : v.toInt = signed negative n) :
    ∃ w : Int64, w.toInt = signed negative m := by
  have hbounds := Word.exists_toInt_iff.mp ⟨v, hv⟩
  apply Word.exists_toInt_iff.mpr
  cases negative <;>
    simp only [signed, Bool.false_eq_true, if_true, if_false] at hbounds ⊢ <;> omega

/-- One more digit is read as in the integers. -/
theorem digitOnto_eq_some_iff (hw : w.toInt = signed negative m) (hdigit : digit.toInt = n) :
    digitOnto negative w digit = some v ↔ v.toInt = signed negative (m * 10 + n) := by
  have hten : (10 : Int64).toInt = 10 := by decide
  have htens (t : Int64) : Word.mul? w 10 = some t ↔ t.toInt = signed negative (m * 10) := by
    rw [Word.mul?_eq_some_iff, hw, hten]
    cases negative <;> simp only [signed, Bool.false_eq_true, if_true, if_false] <;> omega
  have hmove {t : Int64} (ht : t.toInt = signed negative (m * 10)) :
      (if negative then Word.sub? t digit else Word.add? t digit) = some v ↔
        v.toInt = signed negative (m * 10 + n) := by
    cases negative with
    | true =>
      rw [if_pos rfl, Word.sub?_eq_some_iff, ht, hdigit]
      simp only [signed, if_true]
      omega
    | false =>
      rw [if_neg Bool.false_ne_true, Word.add?_eq_some_iff, ht, hdigit]
      simp only [signed, Bool.false_eq_true, if_false]
      omega
  unfold digitOnto
  rw [Option.bind_eq_some_iff]
  constructor
  · rintro ⟨t, ht, hv⟩
    exact (hmove ((htens t).mp ht)).mp hv
  · intro hv
    obtain ⟨t, ht⟩ := exists_toInt_signed (Nat.le_add_right (m * 10) n) hv
    exact ⟨t, (htens t).mpr ht, (hmove ht).mpr hv⟩

theorem toInt_digitValue {c : Char} (hc : isDigit c = true) :
    (Int64.ofNat (digitValue c)).toInt = digitValue c := by
  simp only [isDigit, Bool.and_eq_true, decide_eq_true_eq] at hc
  have hhigh : c.toNat ≤ 57 := hc.2
  apply Int64.toInt_ofNat_of_lt
  rw [digitValue]
  omega

/-- Digits are read as in the integers, behind those that were read as in the integers. -/
theorem wordOnto_eq_some_iff (hw : w.toInt = signed negative m) :
    wordOnto negative w cs = some v ↔
      (∀ c ∈ cs, isDigit c = true) ∧ v.toInt = signed negative (natOnto m cs) := by
  induction cs generalizing w m with
  | nil =>
    have hnil : natOnto m [] = m := rfl
    rw [wordOnto, hnil, ← hw, Int64.toInt_inj, Option.some.injEq]
    exact ⟨fun h => ⟨by simp, h.symm⟩, fun h => h.2.symm⟩
  | cons c rest ih =>
    have hcons : natOnto m (c :: rest) = natOnto (m * 10 + digitValue c) rest := rfl
    rw [wordOnto, List.forall_mem_cons, hcons]
    cases hc : isDigit c with
    | false => simp
    | true =>
      have hstep (t : Int64) := digitOnto_eq_some_iff (v := t) hw (toInt_digitValue hc)
      rw [if_pos rfl, Option.bind_eq_some_iff]
      constructor
      · rintro ⟨t, ht, hv⟩
        obtain ⟨hrest, hv⟩ := (ih ((hstep t).mp ht)).mp hv
        exact ⟨⟨rfl, hrest⟩, hv⟩
      · rintro ⟨⟨-, hrest⟩, hv⟩
        -- the digits that follow lead further away from zero, so there is a word before them
        obtain ⟨t, ht⟩ := exists_toInt_signed (le_natOnto (m * 10 + digitValue c) rest) hv
        exact ⟨t, (hstep t).mpr ht, (ih ht).mpr ⟨hrest, hv⟩⟩

/-- The integer that a numeral stands for. -/
theorem intL?_eq_some_iff {i : Int} :
    intL? cs = some i ↔ (signL cs).2 ≠ [] ∧ (∀ c ∈ (signL cs).2, isDigit c = true) ∧
      signed (signL cs).1 (natOnto 0 (signL cs).2) = i := by
  unfold intL? natL?
  dsimp only
  by_cases h : (signL cs).2 ≠ [] ∧ (signL cs).2.all isDigit = true
  · rw [if_pos h]
    constructor
    · intro hsome
      exact ⟨h.1, List.all_eq_true.mp h.2, Option.some.inj hsome⟩
    · rintro ⟨-, -, rfl⟩
      rfl
  · rw [if_neg h]
    rw [List.all_eq_true] at h
    constructor
    · nofun
    · rintro ⟨hne, hdigits, -⟩
      exact absurd ⟨hne, hdigits⟩ h

/-- A numeral is read with words as what it stands for in the integers, if 64 bits hold that. -/
theorem int64L?_eq_some_iff {i : Int} :
    int64L? cs = some i ↔
      intL? cs = some i ∧ -9223372036854775808 ≤ i ∧ i ≤ 9223372036854775807 := by
  have hzero : (0 : Int64).toInt = signed (signL cs).1 0 := by
    cases (signL cs).1 <;> decide
  rw [← Word.exists_toInt_iff, intL?_eq_some_iff]
  unfold int64L?
  dsimp only
  by_cases hempty : (signL cs).2 = []
  · simp [hempty]
  · rw [if_neg (by simpa using hempty), Option.map_eq_some_iff]
    simp only [wordOnto_eq_some_iff hzero]
    constructor
    · rintro ⟨w, ⟨hdigits, hw⟩, rfl⟩
      exact ⟨⟨hempty, hdigits, hw.symm⟩, w, rfl⟩
    · rintro ⟨⟨-, hdigits, hi⟩, w, hw⟩
      exact ⟨w, ⟨hdigits, hw.trans hi.symm⟩, hw⟩

end Decimal

end Intranet
