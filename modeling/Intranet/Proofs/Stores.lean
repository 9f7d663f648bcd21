import Intranet.Proofs.Memory
import Intranet.Session.Shared

/-!
# What stores promise

The portal works with any store. What it may rely on is said here, without a word about how a store
keeps its records:

* `Store.Timed` — a record has an end, from which on it reads as absent, and nothing but a save
  under its own identifier moves that end;
* `Store.Recalls` — a record that was saved for a time is found again, if it fits the store;
* `Store.Faithful` — the store finds what it was told to keep, and nothing else.

The store in memory keeps all promises (`Memory.timed`, `Memory.recalls`, `Memory.faithful`). The
store on a server keeps the first one whatever texts lie on the server (`Shared.timed`), and the
others for records that are read back from their texts (`Shared.recalls`, `Shared.faithful`).
-/

namespace Intranet.Session

/-! ## Promises -/

variable {σ : Type}

/-- The store has a record under an identifier, or something that it cannot read as one: it does
not read as absent. -/
def Store.Live (s : Store σ) (now : Nat) (st : σ) (id : Id) : Prop :=
  (s.load now id st).1 ≠ .ok none

/-- A store whose records have ends. -/
structure Store.Timed (s : Store σ) where
  /-- When what is kept under an identifier ends. It may still be kept then. -/
  ends? : σ → Id → Option Nat
  /-- What has ended reads as absent, and nothing else does. -/
  load_eq_none : ∀ {now id st},
    (s.load now id st).1 = .ok none ↔ ∀ e, ends? st id = some e → e ≤ now
  /-- Looking up moves no end. -/
  ends?_load : ∀ {now id st other e},
    ends? (s.load now id st).2 other = some e → ends? st other = some e
  /-- Saving moves no end but that of the record. -/
  ends?_save : ∀ {now record ttl st st₁ other e}, s.save now record ttl st = .ok st₁ →
    other ≠ record.id → ends? st₁ other = some e → ends? st other = some e
  /-- What is removed has no end any more, and the others keep theirs. -/
  ends?_remove : ∀ {id st other e},
    ends? (s.remove id st) other = some e → other ≠ id ∧ ends? st other = some e

/-- A store that does as it is told: what was removed is absent and what was saved is found until
its time is over, others are left as they are, and what is absent does not come back. It may only
take records that fit it. -/
structure Store.Faithful (s : Store σ) (fits : Record → Prop) : Prop where
  removed : ∀ {now id st}, (s.load now id (s.remove id st)).1 = .ok none
  remove_other : ∀ {now id other st}, other ≠ id →
    (s.load now other (s.remove id st)).1 = (s.load now other st).1
  saved : ∀ {now later seconds record st st₁}, fits record →
    s.save now record (seconds * 1000) st = .ok st₁ → later < now + seconds * 1000 →
    (s.load later record.id st₁).1 = .ok (some record)
  save_other : ∀ {now later ttl record other st st₁}, s.save now record ttl st = .ok st₁ →
    other ≠ record.id → (s.load later other st₁).1 = (s.load later other st).1
  absent : ∀ {now later id st}, now ≤ later →
    (s.load now id st).1 = .ok none → (s.load later id st).1 = .ok none

namespace Store.Timed

variable {s : Store σ} {now : Nat} {st : σ} {id : Id}

/-- What is live has its end ahead. -/
theorem live_iff (hs : s.Timed) : s.Live now st id ↔ ∃ e, hs.ends? st id = some e ∧ now < e := by
  unfold Store.Live
  rw [Ne, hs.load_eq_none]
  constructor
  · intro h
    obtain ⟨e, he⟩ := Classical.not_forall.1 h
    obtain ⟨hsome, hlt⟩ := Classical.not_imp.1 he
    exact ⟨e, hsome, Nat.lt_of_not_le hlt⟩
  · rintro ⟨e, he, hlt⟩ hall
    exact absurd hlt (Nat.not_lt.2 (hall e he))

/-- What is removed is not live. -/
theorem not_live_remove (hs : s.Timed) : ¬s.Live now (s.remove id st) id := by
  rw [hs.live_iff]
  rintro ⟨e, he, -⟩
  exact (hs.ends?_remove he).1 rfl

theorem load_remove (hs : s.Timed) : (s.load now id (s.remove id st)).1 = .ok none :=
  Classical.not_not.1 hs.not_live_remove

/-- What is absent stays so. -/
theorem load_later (hs : s.Timed) {later : Nat} (hle : now ≤ later)
    (h : (s.load now id st).1 = .ok none) : (s.load later id st).1 = .ok none :=
  hs.load_eq_none.2 fun e he => Nat.le_trans (hs.load_eq_none.1 h e he) hle

end Store.Timed

/-! ## The store in memory -/

namespace Memory

theorem load_eq_none {now : Nat} {id : Id} {m : Memory} :
    (m.load now id).1 = none ↔ ∀ filed, m.find? id = some filed → filed.deadline ≤ now := by
  unfold load
  cases hf : m.find? id with
  | none => simp
  | some filed =>
    by_cases hlt : now < filed.deadline
    · simp [hlt]
    · simpa [hlt] using Nat.not_lt.1 hlt

/-- The store in memory: a record ends at its deadline. -/
def timed : Memory.store.Timed where
  ends? m id := (m.find? id).map Filed.deadline
  load_eq_none := by
    intro now id m
    show (Except.ok (m.load now id).1 : Except StoreError _) = .ok none ↔ _
    simp [load_eq_none]
  ends?_load := by
    intro now id m other e h
    obtain ⟨filed, hfind, he⟩ := Option.map_eq_some_iff.1 h
    exact Option.map_eq_some_iff.2 ⟨filed, find?_of_load hfind, he⟩
  ends?_save := by
    intro now record ttl m m₁ other e hsave hne h
    rwa [(find?_of_save hsave).2 other hne] at h
  ends?_remove := by
    intro id m other e h
    obtain ⟨filed, hfind, he⟩ := Option.map_eq_some_iff.1 h
    refine ⟨?_, Option.map_eq_some_iff.2 ⟨filed, find?_of_remove hfind, he⟩⟩
    rintro rfl
    have hgone := find?_remove_self other m
    have hfind : (m.remove other).find? other = some filed := hfind
    rw [hgone] at hfind
    cases hfind

/-- What the store finds under an identifier depends on what is filed there alone. -/
theorem load_congr {now : Nat} {id : Id} {m m₁ : Memory} (h : m₁.find? id = m.find? id) :
    (Memory.store.load now id m₁).1 = (Memory.store.load now id m).1 := by
  show (Except.ok (m₁.load now id).1 : Except StoreError _) = .ok (m.load now id).1
  unfold load
  rw [h]
  cases m.find? id with
  | none => rfl
  | some filed => by_cases hlt : now < filed.deadline <;> simp [hlt]

/-- The store in memory takes all records. -/
theorem faithful : Memory.store.Faithful fun _ => True where
  removed := timed.load_remove
  remove_other := fun hne => load_congr (find?_remove_of_ne hne _)
  saved := by
    intro now later seconds record m m₁ _ hsave hlt
    obtain ⟨hfind, -⟩ := find?_of_save hsave
    exact congrArg Except.ok (load_eq_some.2 ⟨_, hfind, hlt⟩)
  save_other := fun hsave hne => load_congr ((find?_of_save hsave).2 _ hne)
  absent := timed.load_later

end Memory

/-! ## The store on a server -/

namespace Shared

theorem key_injective {x y : Id} (h : key x = key y) : x = y := by
  cases x
  cases y
  simpa [key] using h

/-- A text that is read is no absence, whether it stands for a record or not. -/
theorem loaded_text_ne (s : String) : loaded (.text s) ≠ .ok none := by
  show (recordOfText s).map some ≠ _
  cases recordOfText s with
  | error e => exact fun h => by cases h
  | ok record => exact fun h => by cases h

namespace Server

/-- Asking for a text leaves the server as it is. -/
theorem run_get (now : Nat) (key : String) (st : Server) :
    st.run now (.get key) = (((st.get? now key).elim .absent .text), st) := by
  cases h : st.get? now key <;> simp [run, h]

theorem get?_eq_none {now : Nat} {key : String} {st : Server} :
    st.get? now key = none ↔ ∀ kept, st.entries.lookup key = some kept → kept.deadline ≤ now := by
  unfold get?
  cases st.entries.lookup key with
  | none => simp
  | some kept => simp

end Server

/-- What the store finds is what it makes of the text under the key. -/
theorem load_eq (now : Nat) (id : Id) (st : Server) :
    (Shared.store.load now id st).1 = loaded ((st.get? now (key id)).elim .absent .text) := by
  show loaded (st.run now (.get (key id))).1 = _
  rw [Server.run_get]

theorem load_congr {now : Nat} {id : Id} {st st₁ : Server}
    (h : st₁.entries.lookup (key id) = st.entries.lookup (key id)) :
    (Shared.store.load now id st₁).1 = (Shared.store.load now id st).1 := by
  rw [load_eq, load_eq, Server.get?, Server.get?, h]

theorem lookup_delete_of_ne {id other : Id} (hne : other ≠ id) (st : Server) :
    (st.delete (key id)).entries.lookup (key other) = st.entries.lookup (key other) :=
  lookup_filter_of_ne (fun h => hne (key_injective h)) st.entries

theorem lookup_setFor_of_ne {now seconds : Nat} {text : String} {id other : Id} (hne : other ≠ id)
    (st : Server) :
    (st.setFor now (key id) text seconds).entries.lookup (key other) =
      st.entries.lookup (key other) := by
  have hbeq : (key other == key id) = false := by simpa using fun h => hne (key_injective h)
  simp only [Server.setFor, List.lookup_cons, hbeq]
  exact lookup_delete_of_ne hne st

/-- Until its time is over a record that was saved is what its text is read as. -/
theorem load_save {now later ttl : Nat} {record : Record} {st st₁ : Server}
    (hsave : Shared.store.save now record ttl st = .ok st₁)
    (hlt : later < now + max (ttl / 1000) 1 * 1000) :
    (Shared.store.load later record.id st₁).1 = (recordOfText record.text).map some := by
  cases hsave
  have hget : (st.setFor now (key record.id) record.text (max (ttl / 1000) 1)).get? later
      (key record.id) = some record.text := by
    simp only [Server.get?, Server.setFor, List.lookup_cons, beq_self_eq_true, hlt, if_true]
  show (Shared.store.load later record.id
    (st.setFor now (key record.id) record.text (max (ttl / 1000) 1))).1 = _
  rw [load_eq, hget]
  rfl

/-- The store on a server: a record ends when the time of its text does. -/
def timed : Shared.store.Timed where
  ends? st id := (st.entries.lookup (key id)).map Kept.deadline
  load_eq_none := by
    intro now id st
    have hends : (∀ e, (st.entries.lookup (key id)).map Kept.deadline = some e → e ≤ now) ↔
        st.get? now (key id) = none := by
      rw [Server.get?_eq_none]
      cases st.entries.lookup (key id) <;> simp
    rw [load_eq, hends]
    cases st.get? now (key id) with
    | none => exact ⟨fun _ => rfl, fun _ => rfl⟩
    | some text =>
      constructor
      · intro h
        exact absurd h (loaded_text_ne text)
      · intro h
        cases h
  ends?_load := by
    intro now id st other e h
    have hsame : (Shared.store.load now id st).2 = st := by
      show (st.run now (.get (key id))).2 = st
      rw [Server.run_get]
    rwa [hsame] at h
  ends?_save := by
    intro now record ttl st st₁ other e hsave hne h
    cases hsave
    rw [← lookup_setFor_of_ne hne st]
    exact h
  ends?_remove := by
    intro id st other e h
    by_cases heq : other = id
    · subst heq
      have hgone : (st.delete (key other)).entries.lookup (key other) = none :=
        lookup_filter_self (key other) st.entries
      have h : ((st.delete (key other)).entries.lookup (key other)).map Kept.deadline = some e := h
      rw [hgone] at h
      cases h
    · refine ⟨heq, ?_⟩
      rw [← lookup_delete_of_ne heq st]
      exact h

/-- The store on a server takes the records that are read back from their texts. -/
theorem faithful : Shared.store.Faithful fun record => Record.ofText record.text = .ok record where
  removed := timed.load_remove
  remove_other := fun hne => load_congr (lookup_delete_of_ne hne _)
  saved := by
    intro now later seconds record st st₁ hread hsave hlt
    have hlong : seconds ≤ max (seconds * 1000 / 1000) 1 := by
      rw [Nat.mul_div_cancel seconds (by decide)]
      exact Nat.le_max_left seconds 1
    have hend : later < now + max (seconds * 1000 / 1000) 1 * 1000 :=
      Nat.lt_of_lt_of_le hlt (Nat.add_le_add_left (Nat.mul_le_mul_right 1000 hlong) now)
    rw [load_save hsave hend, recordOfText, hread]
    rfl
  save_other := by
    intro now later ttl record other st st₁ hsave hne
    cases hsave
    exact load_congr (lookup_setFor_of_ne hne st)
  absent := timed.load_later

end Shared

end Intranet.Session
