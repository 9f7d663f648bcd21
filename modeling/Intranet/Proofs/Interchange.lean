import Intranet.Proofs.Mirrors
import Intranet.Proofs.Settings
import Intranet.Proofs.Stores

/-!
# The two stores are interchangeable

The store in memory keeps records with a deadline and forgets them when it is asked; the store on a
server keeps texts that the server drops by itself. Behind a portal they cannot be told apart: at
any time the server has, under the key of an identifier, the text of the record that is held in
memory, until the same deadline.

* `SameRecords` — what the two have in common at a time, whatever else lies in either;
* `sameRecords_load`, `sameRecords_save`, `sameRecords_remove` — no operation ends that;
* `mirror` — so the stores answer alike;
* `stores_interchangeable` — and runs on them have the same transcript.
-/

namespace Intranet

namespace Session

open Shared (Server Kept key)

/-! ## What the server has -/

namespace Shared.Server

/-- A text whose time has not ended is kept under a key. -/
def Keeps (st : Server) (now : Nat) (key : String) (kept : Kept) : Prop :=
  st.entries.lookup key = some kept ∧ now < kept.deadline

theorem get?_of_keeps {st : Server} {now : Nat} {key : String} {kept : Kept}
    (h : st.Keeps now key kept) : st.get? now key = some kept.text := by
  simp only [get?, h.1, h.2, if_true]

theorem get?_eq_none_of_not_keeps {st : Server} {now : Nat} {key : String}
    (h : ∀ kept, ¬st.Keeps now key kept) : st.get? now key = none := by
  rw [get?_eq_none]
  intro kept hlookup
  exact Nat.le_of_not_lt fun hlt => h kept ⟨hlookup, hlt⟩

/-- After a key was deleted the other keys are left. -/
theorem keeps_delete {st : Server} {now : Nat} {key other : String} {kept : Kept} :
    (st.delete key).Keeps now other kept ↔ other ≠ key ∧ st.Keeps now other kept := by
  unfold Keeps
  by_cases hkey : other = key
  · subst hkey
    have hgone : (st.delete other).entries.lookup other = none :=
      lookup_filter_self other st.entries
    simp [hgone]
  · have hleft : (st.delete key).entries.lookup other = st.entries.lookup other :=
      lookup_filter_of_ne hkey st.entries
    simp [hleft, hkey]

/-- After a key was set it has its new text, and the other keys are left. -/
theorem keeps_setFor {st : Server} {now seconds : Nat} {key text other : String} {kept : Kept}
    (hseconds : 0 < seconds) :
    (st.setFor now key text seconds).Keeps now other kept ↔
      other = key ∧ kept = ⟨text, now + seconds * 1000⟩ ∨
        other ≠ key ∧ st.Keeps now other kept := by
  have hend : now < now + seconds * 1000 := by omega
  by_cases hkey : other = key
  · subst hkey
    have hset : (st.setFor now other text seconds).entries.lookup other =
        some ⟨text, now + seconds * 1000⟩ := by
      simp [setFor]
    simp only [Keeps, hset, true_and, ne_eq, not_true_eq_false, false_and, or_false]
    constructor
    · rintro ⟨heq, -⟩
      exact (Option.some.inj heq).symm
    · rintro rfl
      exact ⟨rfl, hend⟩
  · have hbeq : (other == key) = false := by simpa using hkey
    have hleft : (st.setFor now key text seconds).entries.lookup other =
        (st.delete key).entries.lookup other := by
      simp only [setFor, List.lookup_cons, hbeq]
    rw [Keeps, hleft]
    show (st.delete key).Keeps now other kept ↔ _
    rw [keeps_delete]
    simp [hkey]

end Shared.Server

/-! ## What both have -/

/-- At a time the server has the text of each record that is held in memory, until the same
deadline, and no other text for an identifier. The records are storable. -/
structure SameRecords (now : Nat) (m : Memory) (st : Server) : Prop where
  kept : ∀ id kept, st.Keeps now (key id) kept ↔
    ∃ filed, m.Holds now id filed ∧ kept = ⟨filed.record.text, filed.deadline⟩
  storable : ∀ id filed, m.Holds now id filed → filed.record.Storable

variable {now : Nat} {m : Memory} {st : Server} {id : Id}

theorem sameRecords_empty (now : Nat) : SameRecords now Memory.empty Server.empty where
  kept := by
    intro id kept
    constructor
    · rintro ⟨h, -⟩
      cases h
    · rintro ⟨filed, ⟨h, -⟩, -⟩
      cases h
  storable := by
    rintro id filed ⟨h, -⟩
    cases h

/-- As time goes by the same records end. -/
theorem SameRecords.later {now₁ : Nat} (h : SameRecords now m st) (hle : now ≤ now₁) :
    SameRecords now₁ m st where
  kept := by
    intro id kept
    constructor
    · rintro ⟨hlookup, hlt⟩
      obtain ⟨filed, ⟨hfind, -⟩, rfl⟩ := (h.kept id kept).1 ⟨hlookup, Nat.lt_of_le_of_lt hle hlt⟩
      exact ⟨filed, ⟨hfind, hlt⟩, rfl⟩
    · rintro ⟨filed, ⟨hfind, hlt⟩, rfl⟩
      have hkept := (h.kept id _).2 ⟨filed, ⟨hfind, Nat.lt_of_le_of_lt hle hlt⟩, rfl⟩
      exact ⟨hkept.1, hlt⟩
  storable := fun id filed hholds =>
    h.storable id filed ⟨hholds.1, Nat.lt_of_le_of_lt hle hholds.2⟩

/-- A record that is held in memory is the one that the server gives, and what is not held there it
does not give. -/
theorem SameRecords.load_eq (h : SameRecords now m st) (id : Id) :
    (Shared.store.load now id st).1 = .ok (m.load now id).1 := by
  show Shared.loaded (st.run now (.get (key id))).1 = _
  rw [Shared.Server.run_get]
  cases hload : (m.load now id).1 with
  | some record =>
    obtain ⟨deadline, hholds⟩ := Memory.load_eq_some.1 hload
    have hkeeps := (h.kept id _).2 ⟨_, hholds, rfl⟩
    have hread := Record.ofText_text (h.storable id _ hholds)
    rw [Shared.Server.get?_of_keeps hkeeps]
    show (Shared.recordOfText record.text).map some = _
    rw [Shared.recordOfText, hread]
    rfl
  | none =>
    have hnone : ∀ kept, ¬st.Keeps now (key id) kept := by
      intro kept hkeeps
      obtain ⟨filed, hholds, -⟩ := (h.kept id kept).1 hkeeps
      have hsome := Memory.load_eq_some.2 ⟨filed.deadline, hholds⟩
      rw [hload] at hsome
      cases hsome
    rw [Shared.Server.get?_eq_none_of_not_keeps hnone]
    rfl

/-- Looking a record up leaves the same records. -/
theorem sameRecords_load (h : SameRecords now m st) (id : Id) :
    SameRecords now (m.load now id).2 (Shared.store.load now id st).2 := by
  have hsame : (Shared.store.load now id st).2 = st := by
    show (st.run now (.get (key id))).2 = st
    rw [Shared.Server.run_get]
  rw [hsame]
  constructor
  · intro other kept
    simp only [Memory.holds_load]
    exact h.kept other kept
  · intro other filed hholds
    exact h.storable other filed (Memory.holds_load.1 hholds)

/-- So does removing one. -/
theorem sameRecords_remove (h : SameRecords now m st) (id : Id) :
    SameRecords now (m.remove id) (st.delete (key id)) where
  kept := by
    intro other kept
    have hkey : key other ≠ key id ↔ other ≠ id := not_congr ⟨Shared.key_injective, congrArg key⟩
    rw [Shared.Server.keeps_delete, h.kept, hkey]
    simp only [Memory.holds_remove]
    constructor
    · rintro ⟨hne, filed, hholds, rfl⟩
      exact ⟨filed, ⟨hne, hholds⟩, rfl⟩
    · rintro ⟨filed, ⟨hne, hholds⟩, rfl⟩
      exact ⟨hne, filed, hholds, rfl⟩
  storable := by
    intro other filed hholds
    exact h.storable other filed (Memory.holds_remove.1 hholds).2

/-- And saving one, for a time of whole seconds. -/
theorem sameRecords_save {record : Record} {seconds : Nat} {m₁ : Memory} (h : SameRecords now m st)
    (hrecord : record.Storable) (hseconds : 0 < seconds)
    (hsave : m.save now record (seconds * 1000) = .ok m₁) :
    SameRecords now m₁ (st.run now (Shared.saving record (seconds * 1000))).2 where
  kept := by
    intro other kept
    have hwhole : max (seconds * 1000 / 1000) 1 = seconds := by
      rw [Nat.mul_div_cancel _ (by decide)]
      exact Nat.max_eq_left hseconds
    have hkey : key other = key record.id ↔ other = record.id :=
      ⟨Shared.key_injective, congrArg key⟩
    show (st.setFor now (key record.id) record.text (max (seconds * 1000 / 1000) 1)).Keeps now
      (key other) kept ↔ _
    rw [hwhole, Shared.Server.keeps_setFor hseconds, ne_eq, hkey, h.kept]
    simp only [Memory.holds_save (Nat.mul_pos hseconds (by decide)) hsave]
    constructor
    · rintro (⟨rfl, rfl⟩ | ⟨hne, filed, hholds, rfl⟩)
      · exact ⟨_, .inl ⟨rfl, rfl⟩, rfl⟩
      · exact ⟨filed, .inr ⟨hne, hholds⟩, rfl⟩
    · rintro ⟨filed, ⟨rfl, rfl⟩ | ⟨hne, hholds⟩, rfl⟩
      · exact .inl ⟨rfl, rfl⟩
      · exact .inr ⟨hne, filed, hholds, rfl⟩
  storable := by
    intro other filed hholds
    rcases (Memory.holds_save (Nat.mul_pos hseconds (by decide)) hsave).1 hholds with
      ⟨-, rfl⟩ | ⟨-, hholds⟩
    · exact hrecord
    · exact h.storable other filed hholds

/-! ## The stores -/

/-- The two stores answer alike, as long as a record that is saved last still ends at a point of
the clock. -/
def mirror {seconds last : Nat} (hseconds : 0 < seconds)
    (hfits : (last + seconds * 1000) / 1000 < Memory.clockLimit) :
    Memory.store.Mirror Shared.store (seconds * 1000) last where
  alike := SameRecords
  later hle h := h.later hle
  load := by
    intro now m st id h
    refine ⟨(m.load now id).1, rfl, h.load_eq id, ?_, sameRecords_load h id⟩
    intro record hrecord
    obtain ⟨deadline, hholds⟩ := Memory.load_eq_some.1 hrecord
    exact h.storable id _ hholds
  save := by
    intro now record m st h hrecord hlast
    have hdeadline : (now + seconds * 1000) / 1000 < Memory.clockLimit :=
      Nat.lt_of_le_of_lt (Nat.div_le_div_right (Nat.add_le_add_right hlast _)) hfits
    have hsave : m.save now record (seconds * 1000) =
        .ok ⟨(record.id, ⟨record, now + seconds * 1000⟩) :: (m.remove record.id).entries⟩ :=
      if_pos hdeadline
    exact ⟨_, _, hsave, rfl, sameRecords_save h hrecord hseconds hsave⟩
  remove id h := sameRecords_remove h id

end Session

/-! ## Portals -/

namespace Portal

open Session (World Memory Outage)
open Session.Shared (Server)

/-- **The two stores are interchangeable.** A portal that starts with an empty store, under
settings that pass the check, has the same transcript on the store in memory and on the store on a
server: whatever requests come, with whatever pauses between them, each is served with the same
session and has the same response. This is so as long as a session that is filed at the end of the
run still ends at a point of the clock, which any end whose date can be held is, and also when
calls to the store are refused. -/
theorem stores_interchangeable (p : Portal) (hreg : p.registry = Graphql.portalRegistry)
    (settings : Settings) (hcheck : settings.check = .ok ())
    (httl : p.keeper.ttl = settings.session.cookieTtlSecs.toNat) (clock : Nat) (outage : Outage)
    (es : List Event)
    (hfits : (clock + elapsed es + p.keeper.ttl * 1000) / 1000 < Memory.clockLimit) :
    p.transcript Memory.store { World.start Memory.empty clock with outage := outage } es =
        p.transcript Session.Shared.store
          { World.start Server.empty clock with outage := outage } es ∧
      (p.runOn Memory.store { World.start Memory.empty clock with outage := outage } es).ledger =
        (p.runOn Session.Shared.store
          { World.start Server.empty clock with outage := outage } es).ledger := by
  have hpos : 0 < p.keeper.ttl := httl ▸ Settings.cookieTtlSecs_pos hcheck
  let w : World Memory := { World.start Memory.empty clock with outage := outage }
  have halike : (Session.mirror hpos hfits).alike w.clock w.store Server.empty :=
    Session.sameRecords_empty clock
  obtain ⟨htranscript, st, hleft⟩ := transcript_mirror hreg (Session.mirror hpos hfits) es halike
    (Nat.le_refl (clock + elapsed es))
  refine ⟨htranscript.symm, ?_⟩
  exact (congrArg World.ledger hleft).symm

/-- The request for a folder with the cookie of the second identifier of the rehearsal portal: the
one under which the first person signs in there. -/
def returningListsFolder : Http.Request := Rehearsal.returning Rehearsal.strangerListsFolder

/-- Someone signs in at the rehearsal portal and comes back a second later, and again in the moment
when the session ends. -/
def signInAndReturn : List Event :=
  [.request Rehearsal.signIn, .pause 1000, .request returningListsFolder, .pause 3599000,
    .request returningListsFolder]

/-- Settings under which sessions last an hour, as those of the rehearsal portal do. -/
def hourLong : Settings :=
  { Settings.default with session := { Settings.default.session with cookieTtlSecs := 3600 } }

theorem stores_interchangeable_rehearsal :
    Rehearsal.portal.registry = Graphql.portalRegistry ∧ hourLong.check = .ok () ∧
      Rehearsal.portal.keeper.ttl = hourLong.session.cookieTtlSecs.toNat ∧
      (0 + elapsed signInAndReturn + Rehearsal.portal.keeper.ttl * 1000) / 1000 <
        Memory.clockLimit ∧
      Rehearsal.portal.transcript Memory.store
          { World.start Memory.empty 0 with outage := .none } signInAndReturn =
        Rehearsal.portal.transcript Session.Shared.store
          { World.start Server.empty 0 with outage := .none } signInAndReturn := by
  have hreg : Rehearsal.portal.registry = Graphql.portalRegistry := rfl
  have hcheck : hourLong.check = .ok () := rfl
  have httl : Rehearsal.portal.keeper.ttl = hourLong.session.cookieTtlSecs.toNat := rfl
  have hfits : (0 + elapsed signInAndReturn + Rehearsal.portal.keeper.ttl * 1000) / 1000 <
      Memory.clockLimit := by decide
  exact ⟨hreg, hcheck, httl, hfits,
    (stores_interchangeable Rehearsal.portal hreg hourLong hcheck httl 0 .none
      signInAndReturn hfits).1⟩

end Portal

end Intranet
