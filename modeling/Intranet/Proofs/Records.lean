import Intranet.Proofs.Json.Limits
import Intranet.Proofs.Time
import Intranet.Proofs.Uuid
import Intranet.Session.Keeper

/-!
# Records are read back

The text under which a record is stored is read as that record, whatever characters its login, its
name and its credential have and whatever its claims are, unless they go too deep. The records that
the portal stores are `Storable`: they have no claims but the one that signing in sets, and an end
that can be written down.

* `Principal.reads_decoder` — who is signed in;
* `Record.IsWhole.ofText_text`, `Record.IsWhole.ofText_text_deep` — which records are read from
  their texts;
* `Record.ofText_text` — those of the portal are;
* `held_of_expiry` — the end of a session that starts can be written down.
-/

namespace Intranet

open Intranet.Json (Reads Fills Decoder bytesOf)

/-! ## Parts of a record -/

theorem Uuid.reads_decoder (u : Uuid) (depth : Nat) (rest : List UInt8) :
    Reads (Uuid.decoder depth) (bytesOf (Json.textL (.str u.text)) ++ rest) u rest := by
  refine Json.reads_formatted ?_ depth rest
  rw [Uuid.ofText_text]
  rfl

theorem Instant.reads_decoder {t : Instant} (hheld : t.isHeld = true)
    (hnanos : t.nanos < Instant.second) (depth : Nat) (rest : List UInt8) :
    Reads (Instant.decoder depth) (bytesOf (Json.textL (.str t.text)) ++ rest) t rest := by
  refine Json.reads_formatted ?_ depth rest
  rw [Instant.ofText_text hheld hnanos]
  rfl

namespace Principal

/-- Who is signed in is read from an object with the four fields. -/
theorem reads_decoder (p : Principal) (depth : Nat) (rest : List UInt8) :
    Reads (decoder (depth + 1)) (bytesOf (Json.textL p.json) ++ rest) p rest := by
  have hfills : Fills (Decoder.recordMember fields depth)
      [("id", .str p.id.text), ("login", .str p.login), ("display_name", .str p.displayName),
        ("is_admin", .bool p.isAdmin)] ⟨none, none, none, none⟩
      ⟨some p.id, some p.login, some p.displayName, some p.isAdmin⟩ := by
    refine .slot rfl rfl (fun rest _ => Uuid.reads_decoder p.id depth rest) ?_
    refine .slot rfl rfl (fun rest _ => Json.reads_text p.login depth rest) ?_
    refine .slot rfl rfl (fun rest _ => Json.reads_text p.displayName depth rest) ?_
    exact .slot rfl rfl (fun rest _ => Json.reads_flag p.isAdmin depth rest) (.nil _)
  refine Json.reads_record hfills (fun field hfield _ => ?_) rest
  simp only [fields, List.mem_cons, List.not_mem_nil, or_false] at hfield
  rcases hfield with rfl | rfl | rfl | rfl <;> rfl

end Principal

/-! ## Records -/

namespace Session

/-- The claims that a session can have: none, or the one that signing in sets. -/
def IsAdminAtMost (claims : Members) : Prop :=
  claims = [] ∨ ∃ isAdmin, claims = [(adminClaim, .bool isAdmin)]

namespace Record

/-- A record of the portal: with no claims but the one that signing in sets, and an end that can be
written down. -/
structure Storable (r : Record) : Prop where
  claims : IsAdminAtMost r.claims
  held : r.expiresAt.isHeld = true
  nanos : r.expiresAt.nanos < Instant.second

theorem reads_principal (p : Option Principal) (depth : Nat) (rest : List UInt8) :
    Reads (Decoder.nullable Principal.decoder (depth + 1))
      (bytesOf (Json.textL (p.elim .null Principal.json)) ++ rest) p rest := by
  cases p with
  | none => exact Json.reads_nullable_null _ _ _
  | some p =>
    have h := Principal.reads_decoder p depth rest
    show Reads _ (bytesOf (Json.textL (.obj _)) ++ rest) _ _
    rw [Json.bytesOf_object]
    refine Json.reads_nullable_some (by decide) (by decide) ?_
    rw [← Json.bytesOf_object]
    exact h

theorem reads_credential (c : Option String) (depth : Nat) (rest : List UInt8) :
    Reads (Decoder.nullable Decoder.text depth)
      (bytesOf (Json.textL (.optStr c)) ++ rest) c rest := by
  cases c with
  | none => exact Json.reads_nullable_null _ _ _
  | some c =>
    have h := Json.reads_text c depth rest
    have hbytes : bytesOf (Json.textL (.str c)) ++ rest =
        34 :: (bytesOf (c.toList.flatMap Json.escape) ++ 34 :: rest) := by
      show bytesOf (Json.quoteL c) ++ rest = _
      rw [Json.bytesOf_quoteL, List.cons_append, List.append_assoc]
      rfl
    show Reads _ (bytesOf (Json.textL (.str c)) ++ rest) _ _
    rw [hbytes] at h ⊢
    exact Json.reads_nullable_some (by decide) (by decide) h

/-- The fields before the claims. -/
theorem fills_front (r : Record) :
    Fills (Decoder.recordMember fields 126)
      [("id", .str r.id.text), ("principal", r.principal.elim .null Principal.json),
        ("credential", .optStr r.credential)] ⟨none, none, none, none, none⟩
      ⟨some r.id.text, some r.principal, some r.credential, none, none⟩ := by
  refine .slot rfl rfl (fun rest _ => Json.reads_text r.id.text 126 rest) ?_
  refine .slot rfl rfl (fun rest _ => reads_principal r.principal 125 rest) ?_
  exact .slot rfl rfl (fun rest _ => reads_credential r.credential 126 rest) (.nil _)

/-- A record that is printed without loss: the numbers in its claims are whole, and it has an end
that can be written down. -/
structure IsWhole (r : Record) : Prop where
  claims : (Json.obj r.claims).IsWhole
  held : r.expiresAt.isHeld = true
  nanos : r.expiresAt.nanos < Instant.second

/-- **Records are read back**, if their claims do not go too deep. -/
theorem IsWhole.ofText_text {r : Record} (h : r.IsWhole)
    (hdepth : (Json.obj r.claims).nesting < Json.maxDepth) : ofText r.text = .ok r := by
  refine Json.runText_of_reads ?_
  have hfills : Fills (Decoder.recordMember fields 126)
      [("claims", .obj r.claims), ("expires_at", .str r.expiresAt.text)]
      ⟨some r.id.text, some r.principal, some r.credential, none, none⟩
      ⟨some r.id.text, some r.principal, some r.credential, some r.claims, some r.expiresAt⟩ := by
    refine .slot rfl rfl
      (fun rest _ => Json.reads_object h.claims (Nat.le_of_lt_succ hdepth) rest) ?_
    exact .slot rfl rfl (fun rest _ => Instant.reads_decoder h.held h.nanos 126 rest) (.nil _)
  have hread : Reads (decoder Json.maxDepth) (bytesOf (Json.textL r.json) ++ []) r [] := by
    refine Json.reads_record ((fills_front r).append hfills) (fun field hfield _ => ?_) []
    simp only [fields, List.mem_cons, List.not_mem_nil, or_false] at hfield
    rcases hfield with rfl | rfl | rfl | rfl | rfl <;> rfl
  rwa [List.append_nil] at hread

/-- Claims that go too deep are printed and not read back. -/
theorem IsWhole.ofText_text_deep {r : Record} (h : r.IsWhole)
    (hdeep : Json.maxDepth ≤ (Json.obj r.claims).nesting) :
    ∃ failure, ofText r.text = .error failure ∧ failure.cause = .malformed .tooDeep := by
  refine Json.runText_of_givesUp ?_
  have hgive : Json.GivesUp (decoder Json.maxDepth) (bytesOf (Json.textL r.json) ++ []) :=
    Json.givesUp_record (fills_front r) rfl rfl
      (fun rest => (Json.givesUp_object h.claims (Nat.lt_of_succ_le hdeep) rest).bind) []
  rwa [List.append_nil] at hgive

/-- The records of the portal are read back. -/
theorem ofText_text {r : Record} (h : r.Storable) : ofText r.text = .ok r := by
  have hclaims : (Json.obj r.claims).IsWhole ∧ (Json.obj r.claims).nesting < Json.maxDepth := by
    rcases h.claims with hnone | ⟨isAdmin, hone⟩
    · rw [hnone]
      exact ⟨.obj .nil (fun m hm => absurd hm List.not_mem_nil), by decide⟩
    · rw [hone]
      refine ⟨.obj (List.pairwise_singleton _ _) fun m hm => ?_, show 1 < 127 by decide⟩
      rw [List.mem_singleton.1 hm]
      exact .bool isAdmin
  exact IsWhole.ofText_text ⟨hclaims.1, h.held, h.nanos⟩ hclaims.2

end Record

theorem held_of_addSeconds? {t later : Instant} {n : Nat} (h : t.addSeconds? n = some later) :
    later.isHeld = true ∧ later.nanos = t.nanos := by
  unfold Instant.addSeconds? at h
  dsimp only at h
  split at h
  · next hheld =>
    cases h
    exact ⟨hheld, rfl⟩
  · cases h

/-- The end of a session that starts at a time can be written down. -/
theorem held_of_expiry {now ttl : Nat} {t : Instant} (h : expiry now ttl = .ok t) :
    t.isHeld = true ∧ t.nanos < Instant.second := by
  unfold expiry at h
  cases hadd : (Instant.ofMillis now).addSeconds?
      (if ttl * 1000 ≤ longestSpan then ttl else 365 * 86400) with
  | none =>
    simp only [hadd] at h
    cases h
  | some later =>
    simp only [hadd] at h
    cases h
    obtain ⟨hheld, hnanos⟩ := held_of_addSeconds? hadd
    refine ⟨hheld, ?_⟩
    rw [hnanos]
    show now % 1000 * 1000000 < 1000000000
    omega

end Session

end Intranet
