import Intranet.Proofs.Records
import Intranet.Proofs.Stores

/-!
# What is saved on a server is found there

The store on a server takes every record: whatever its claims are, they are printed and kept. What
it finds later is what it reads from the text, and reading goes so deep and no deeper.

* `load_saved`, `load_saved_deep` — what the store finds of a record until its time is over;
* `found_again_iff` — which records are found again as they were saved;
* `deepRecord_lost` — one that is not.
-/

namespace Intranet

namespace Session

variable {r : Record} {now later ttl : Nat} {st st₁ : Shared.Server}

/-- A record whose claims do not go too deep is found as it was saved. -/
theorem load_saved (hr : r.IsWhole) (hdepth : (Json.obj r.claims).nesting < Json.maxDepth)
    (hsave : Shared.store.save now r ttl st = .ok st₁)
    (hlt : later < now + max (ttl / 1000) 1 * 1000) :
    (Shared.store.load later r.id st₁).1 = .ok (some r) := by
  rw [Shared.load_save hsave hlt, Shared.recordOfText, hr.ofText_text hdepth]
  rfl

/-- A record whose claims go too deep is kept, and each request for it fails. -/
theorem load_saved_deep (hr : r.IsWhole) (hdeep : Json.maxDepth ≤ (Json.obj r.claims).nesting)
    (hsave : Shared.store.save now r ttl st = .ok st₁)
    (hlt : later < now + max (ttl / 1000) 1 * 1000) :
    ∃ failure : Json.Failure, failure.cause = .malformed .tooDeep ∧
      (Shared.store.load later r.id st₁).1 = .error (.encoding failure.located) := by
  obtain ⟨failure, hread, hcause⟩ := hr.ofText_text_deep hdeep
  refine ⟨failure, hcause, ?_⟩
  rw [Shared.load_save hsave hlt, Shared.recordOfText, hread]
  rfl

/-- **What is saved is found again.** A record with any strings, any claims without fractions and
any end that can be written down is read from its text, and found on the server until its time is
over, exactly when its claims do not go deeper than reading does. -/
theorem found_again_iff (hr : r.IsWhole) (now ttl : Nat) (st : Shared.Server) :
    (Record.ofText r.text = .ok r ∧
      ∃ st₁, Shared.store.save now r ttl st = .ok st₁ ∧
        ∀ later < now + max (ttl / 1000) 1 * 1000,
          (Shared.store.load later r.id st₁).1 = .ok (some r)) ↔
      (Json.obj r.claims).nesting < Json.maxDepth := by
  constructor
  · rintro ⟨hread, -⟩
    by_contra hdeep
    obtain ⟨failure, hfail, -⟩ := hr.ofText_text_deep (Nat.le_of_not_lt hdeep)
    rw [hfail] at hread
    cases hread
  · intro hdepth
    exact ⟨hr.ofText_text hdepth, _, rfl, fun later hlt => load_saved hr hdepth rfl hlt⟩

/-- Someone's settings among the claims, with the largest and the smallest number that there is. -/
def settingsRecord : Record :=
  { id := ⟨"0123456789abcdef0123456789abcdef"⟩
    principal := some ⟨⟨1⟩, "jdoe", "John \"JD\" Doe", true⟩
    credential := some "sécret\n"
    claims := [("isAdmin", .bool true),
      ("settings",
        .arr [.int 18446744073709551615, .obj [("low", .int (-9223372036854775808))], .null])]
    expiresAt := ⟨1893456000, 123456789⟩ }

/-- They are found again. -/
theorem settingsRecord_found :
    settingsRecord.IsWhole ∧ (Json.obj settingsRecord.claims).nesting < Json.maxDepth ∧
      Record.ofText settingsRecord.text = .ok settingsRecord := by
  have hwhole : settingsRecord.IsWhole := by
    refine ⟨.obj (by decide) ?_, rfl, by decide⟩
    rw [settingsRecord, List.forall_mem_cons, List.forall_mem_singleton]
    refine ⟨.bool true, .arr ?_⟩
    rw [List.forall_mem_cons, List.forall_mem_cons, List.forall_mem_singleton]
    refine ⟨.int (by decide) (by decide), .obj (List.pairwise_singleton _ _) ?_, .null⟩
    rw [List.forall_mem_singleton]
    exact .int (by decide) (by decide)
  have hdepth : (Json.obj settingsRecord.claims).nesting < Json.maxDepth := by decide
  exact ⟨hwhole, hdepth, ((found_again_iff hwhole 0 3600000 .empty).2 hdepth).1⟩

/-- Lists inside one another, and one more. -/
def lists : Nat → Json
  | 0 => .arr []
  | n + 1 => .arr [lists n]

theorem nesting_lists (n : Nat) : (lists n).nesting = n + 1 := by
  induction n with
  | zero => rfl
  | succ n ih =>
    show max (lists n).nesting 0 + 1 = n + 1 + 1
    rw [ih, Nat.max_zero]

theorem isWhole_lists (n : Nat) : (lists n).IsWhole := by
  induction n with
  | zero => exact .arr fun v hv => absurd hv List.not_mem_nil
  | succ n ih => exact .arr fun v hv => List.mem_singleton.1 hv ▸ ih

/-- A record with a claim of 126 lists inside one another. As a text of its own the claim would be
read. -/
def deepRecord : Record := { settingsRecord with claims := [("lists", lists 125)] }

/-- It is saved, and from then on reading it fails. -/
theorem deepRecord_lost :
    deepRecord.IsWhole ∧ Record.ofText deepRecord.text ≠ .ok deepRecord ∧
      ∃ st₁, Shared.store.save 0 deepRecord 3600000 .empty = .ok st₁ ∧
        ∀ found, (Shared.store.load 0 deepRecord.id st₁).1 ≠ .ok found := by
  have hwhole : deepRecord.IsWhole := by
    refine ⟨.obj (List.pairwise_singleton _ _) ?_, rfl, by decide⟩
    rw [deepRecord, List.forall_mem_singleton]
    exact isWhole_lists 125
  have hdeep : Json.maxDepth ≤ (Json.obj deepRecord.claims).nesting := by
    have hlists := nesting_lists 125
    show 127 ≤ max (lists 125).nesting 0 + 1
    omega
  obtain ⟨failure, hread, -⟩ := hwhole.ofText_text_deep hdeep
  obtain ⟨st₁, hsave⟩ : ∃ st₁, Shared.store.save 0 deepRecord 3600000 .empty = .ok st₁ := ⟨_, rfl⟩
  have hlt : 0 < 0 + max (3600000 / 1000) 1 * 1000 := by decide
  obtain ⟨failure', -, hload⟩ := load_saved_deep hwhole hdeep hsave hlt
  refine ⟨hwhole, fun hok => ?_, st₁, hsave, fun found hfound => ?_⟩
  · rw [hread] at hok
    cases hok
  · rw [hload] at hfound
    cases hfound

end Session

end Intranet
