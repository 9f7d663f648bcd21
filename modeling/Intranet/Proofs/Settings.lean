import Intranet.Settings.Check

/-!
# Settings that pass the check

What is known of the settings for sessions once the check has passed.
-/

namespace Intranet

namespace Settings

/-- A check that refuses nothing goes on. -/
theorem of_refuseIf {condition : Bool} {reason : Unfit} {rest : Except Unfit Unit}
    (h : (refuseIf condition reason >>= fun _ => rest) = .ok ()) :
    condition = false ∧ rest = .ok () := by
  cases condition with
  | true => cases h
  | false => exact ⟨rfl, h⟩

variable {settings : Settings}

theorem sessions_of_check (h : settings.check = .ok ()) :
    Text.isBlankText settings.session.cookieName = false ∧ settings.session.cookieTtlSecs ≠ 0 := by
  obtain ⟨-, h⟩ := of_refuseIf h
  obtain ⟨-, h⟩ := of_refuseIf h
  obtain ⟨-, h⟩ := of_refuseIf h
  obtain ⟨hname, h⟩ := of_refuseIf h
  obtain ⟨httl, -⟩ := of_refuseIf h
  exact ⟨hname, of_decide_eq_false httl⟩

/-- Settings that pass the check let sessions live for some time. -/
theorem cookieTtlSecs_pos (h : settings.check = .ok ()) :
    0 < settings.session.cookieTtlSecs.toNat := by
  obtain ⟨-, hne⟩ := sessions_of_check h
  exact Nat.pos_of_ne_zero fun hzero => hne (UInt64.toNat_inj.1 hzero)

/-- Settings that pass the check have a cookie with a name. -/
theorem cookieName_ne_nil (h : settings.check = .ok ()) :
    settings.session.cookieName.toList ≠ [] := by
  obtain ⟨hname, -⟩ := sessions_of_check h
  intro hnil
  rw [Text.isBlankText, hnil] at hname
  cases hname

end Settings

end Intranet
