/-!
# ASCII letters

Capital and small letters of ASCII; other characters are left as they are.
-/

namespace Intranet.Text

/-- An ASCII capital letter becomes a small one. -/
def lowerChar (c : Char) : Char :=
  if 'A' ≤ c ∧ c ≤ 'Z' then Char.ofNat (c.toNat + 32) else c

/-- A small letter stands 32 places behind its capital. -/
theorem toNat_lowerChar (c : Char) :
    (lowerChar c).toNat = if 'A' ≤ c ∧ c ≤ 'Z' then c.toNat + 32 else c.toNat := by
  unfold lowerChar
  split
  · next h =>
    have hcapital : c.toNat ≤ 0x5A := h.2
    rw [Char.ofNat, dif_pos (.inl (by omega))]
    rfl
  · rfl

/-- Only capital letters change. -/
theorem lowerChar_eq_self_iff {c : Char} : lowerChar c = c ↔ ¬('A' ≤ c ∧ c ≤ 'Z') := by
  rw [← Char.toNat_inj, toNat_lowerChar]
  split
  · next h => exact ⟨fun heq => by omega, fun hnot => absurd h hnot⟩
  · next h => exact ⟨fun _ => h, fun _ => rfl⟩

/-- A string with small ASCII letters. -/
def lower (s : String) : String := String.ofList (s.toList.map lowerChar)

end Intranet.Text
