import Intranet.Proofs.Digits
import Intranet.Uuid

/-!
# Identifiers are read back

The five groups of an identifier are read as that identifier: its 32 digits are those of a number,
hyphens are put between them and taken out again.
-/

namespace Intranet

namespace Uuid

theorem length_digits (u : Uuid) : u.digits.length = 32 :=
  Hex.length_ofNat (by decide) (Nat.lt_of_lt_of_le u.bits.isLt (by decide))

theorem natL?_digits (u : Uuid) : Hex.natL? u.digits = some u.bits.toNat :=
  Hex.natL?_ofNat 32 u.bits.toNat

/-- Without its hyphens a written identifier is its digits again. -/
theorem filter_hyphenate {ds : List Char} (hds : ∀ c ∈ ds, c ≠ '-') :
    (hyphenate ds).filter (· ≠ '-') = ds := by
  have hkeep {part : List Char} (hpart : ∀ c ∈ part, c ∈ ds) : part.filter (· ≠ '-') = part :=
    List.filter_eq_self.2 fun c hc => by simpa using hds c (hpart c hc)
  have htake (n : Nat) : ∀ c ∈ ds.take n, c ∈ ds := fun c hc => List.mem_of_mem_take hc
  have hdrop (n : Nat) : ∀ c ∈ ds.drop n, c ∈ ds := fun c hc => List.mem_of_mem_drop hc
  have hmiddle (n k : Nat) : ∀ c ∈ (ds.drop n).take k, c ∈ ds :=
    fun c hc => hdrop n c (List.mem_of_mem_take hc)
  have hjoin (n k : Nat) : (ds.drop n).take k ++ ds.drop (n + k) = ds.drop n := by
    rw [← List.drop_drop]
    exact List.take_append_drop k (ds.drop n)
  simp only [hyphenate, List.cons_append, List.append_assoc, List.filter_append, List.filter_cons,
    ne_eq, not_true_eq_false, decide_false, Bool.false_eq_true, if_false]
  simp only [← ne_eq]
  rw [hkeep (htake 8), hkeep (hmiddle 8 4), hkeep (hmiddle 12 4), hkeep (hmiddle 16 4),
    hkeep (hdrop 20), hjoin 16 4, hjoin 12 4, hjoin 8 4]
  exact List.take_append_drop 8 ds

/-- A text that begins with a digit has neither braces nor the start of a URN. -/
theorem stripped_of_digit {c : Char} (hc : Hex.isDigit c = true) (cs : List Char) :
    stripped (c :: cs) = (c :: cs, 0, true) := by
  unfold stripped
  split
  · next h =>
    cases h
    exact absurd hc (by decide)
  · next h =>
    cases h
    exact absurd hc (by decide)
  · rfl

/-- **Identifiers are read back.** -/
theorem ofText_text (u : Uuid) : ofText u.text = .ok u := by
  have hdigit : ∀ c ∈ u.digits, Hex.isDigit c = true := fun c hc => Hex.isDigit_of_mem_ofNat hc
  have hplain : ∀ c ∈ u.digits, c ≠ '-' := by
    rintro c hc rfl
    exact absurd (hdigit _ hc) (by decide)
  have hgroups : ofGroups? (hyphenate u.digits) = some u := by
    simp only [ofGroups?, filter_hyphenate hplain, if_true, ofDigits?, length_digits, natL?_digits,
      Option.map_some, BitVec.ofNat_toNat, BitVec.setWidth_eq]
  have hstripped : stripped (hyphenate u.digits) = (hyphenate u.digits, 0, true) := by
    have hlength := u.length_digits
    cases hds : u.digits with
    | nil =>
      rw [hds] at hlength
      cases hlength
    | cons c cs => exact stripped_of_digit (hdigit c (by rw [hds]; exact List.mem_cons_self)) _
  rw [ofText, ofText?, text, String.toList_ofList, hstripped]
  simp only [hgroups]

end Uuid

end Intranet
