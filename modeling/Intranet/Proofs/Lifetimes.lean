import Intranet.Proofs.Memory

/-!
# How long records live in memory

The store in memory is used in any order: records are saved under their identifiers again and
again, looked up and removed, what has expired is dropped, and time passes. Expired records may
still be filed, and they are told from the others wherever the store is read. What it finds is said
here by what happened alone: the record of the last save, if nothing was removed behind it and its
time has not ended.

* `Use`, `Moment.use` — what happens to the store;
* `Due` — what the store is to find, read from what happened;
* `Moment.holds_use`, `due_concat` — what one use makes of both;
* `Sound`, `Sound.use`, `sound_of_after` — the invariant: the store and its history agree;
* `timed_iff` — the store keeps records for their time, unless one is to live beyond the end of the
  clock;
* `endless_save` — with such a time to live saving breaks down.
-/

namespace Intranet

namespace Session.Memory

/-! ## Uses -/

/-- What may happen to the store in memory. -/
inductive Use where
  | save (record : Record) (ttl : Nat)
  | load (id : Id)
  | remove (id : Id)
  | purge
  /-- Nothing for so many milliseconds. -/
  | pause (ms : Nat)

namespace Use

/-- The time that a use takes. -/
def span : Use → Nat
  | .pause ms => ms
  | _ => 0

/-- A use that says what is filed under an identifier from then on. -/
def Settles (id : Id) : Use → Prop
  | .save record _ => record.id = id
  | .remove other => other = id
  | _ => False

/-- A use that may drop what has expired, and does nothing else. -/
def Sweeps : Use → Prop
  | .load _ => True
  | .purge => True
  | _ => False

theorem Sweeps.span_eq {u : Use} (h : u.Sweeps) : u.span = 0 := by
  cases u with
  | load => rfl
  | purge => rfl
  | _ => exact absurd h not_false

theorem Sweeps.not_settles {u : Use} (h : u.Sweeps) (id : Id) : ¬u.Settles id := by
  cases u with
  | load => exact not_false
  | purge => exact not_false
  | _ => exact absurd h not_false

theorem Sweeps.ne_save {u : Use} (h : u.Sweeps) (record : Record) (ttl : Nat) :
    u ≠ .save record ttl := by
  rintro rfl
  exact h

end Use

/-- The store at a time. -/
structure Moment where
  now : Nat
  memory : Memory

namespace Moment

/-- The store after a use, unless it breaks down. -/
def use (s : Moment) : Use → Except Crash Moment
  | .save record ttl => (s.memory.save s.now record ttl).map fun m => { s with memory := m }
  | .load id => .ok { s with memory := (s.memory.load s.now id).2 }
  | .remove id => .ok { s with memory := s.memory.remove id }
  | .purge => .ok { s with memory := s.memory.purge s.now }
  | .pause ms => .ok { s with now := s.now + ms }

/-- The record that the store finds under an identifier. -/
def find? (s : Moment) (id : Id) : Option Record := (s.memory.load s.now id).1

/-- How many records the store counts. -/
def live (s : Moment) : Nat := s.memory.live s.now

end Moment

/-- An empty store after some uses, one after the other. -/
def after (start : Nat) (uses : List Use) : Except Crash Moment :=
  uses.foldlM Moment.use ⟨start, empty⟩

theorem after_concat (start : Nat) (uses : List Use) (u : Use) :
    after start (uses ++ [u]) = (after start uses).bind fun s => s.use u := by
  rw [after, List.foldlM_append]
  exact bind_congr fun s => List.foldlM_cons.trans (bind_pure _)

/-! ## What happened -/

/-- The time after some uses. -/
def clock (start : Nat) (uses : List Use) : Nat := uses.foldl (fun now u => now + u.span) start

theorem clock_concat (start : Nat) (uses : List Use) (u : Use) :
    clock start (uses ++ [u]) = clock start uses + u.span := by
  rw [clock, List.foldl_append]
  rfl

/-- The last use that says what is filed under the identifier of a record files this record there,
with a deadline that lies ahead. -/
def Due (start : Nat) (uses : List Use) (record : Record) (deadline : Nat) : Prop :=
  ∃ before ttl later, uses = before ++ .save record ttl :: later ∧
    (∀ u ∈ later, ¬u.Settles record.id) ∧ deadline = clock start before + ttl ∧
      clock start uses < deadline

/-- No deadline lies beyond the last point of the clock. -/
def Fits (start : Nat) (uses : List Use) : Prop :=
  ∀ before record ttl later, uses = before ++ .save record ttl :: later →
    (clock start before + ttl) / 1000 < clockLimit

/-- An element of a list with one more at its end: that one, or one of the others. -/
theorem concat_eq_append_cons_iff {α : Type} {l before later : List α} {a b : α} :
    l ++ [a] = before ++ b :: later ↔
      (before = l ∧ b = a ∧ later = []) ∨
        ∃ rest, later = rest ++ [a] ∧ l = before ++ b :: rest := by
  constructor
  · intro h
    rcases List.eq_nil_or_concat later with rfl | ⟨rest, c, rfl⟩
    · obtain ⟨rfl, hlast⟩ := List.append_inj' h rfl
      cases hlast
      exact .inl ⟨rfl, rfl, rfl⟩
    · rw [List.concat_eq_append, ← List.cons_append, ← List.append_assoc] at h
      obtain ⟨rfl, hlast⟩ := List.append_inj' h rfl
      cases hlast
      exact .inr ⟨rest, List.concat_eq_append, rfl⟩
  · rintro (⟨rfl, rfl, rfl⟩ | ⟨rest, rfl, rfl⟩)
    · rfl
    · simp

/-- What one more use makes of what is due. -/
theorem due_concat {start : Nat} {uses : List Use} {u : Use} {record : Record} {deadline : Nat} :
    Due start (uses ++ [u]) record deadline ↔
      (∃ ttl, u = .save record ttl ∧ deadline = clock start uses + ttl ∧ 0 < ttl) ∨
        ¬u.Settles record.id ∧ Due start uses record deadline ∧
          clock start uses + u.span < deadline := by
  rw [Due, clock_concat]
  constructor
  · rintro ⟨before, ttl, later, huses, hlater, rfl, hlt⟩
    rcases concat_eq_append_cons_iff.1 huses with ⟨rfl, rfl, rfl⟩ | ⟨rest, rfl, rfl⟩
    · exact .inl ⟨ttl, rfl, rfl, Nat.lt_of_add_lt_add_left hlt⟩
    · rw [List.forall_mem_append, List.forall_mem_singleton] at hlater
      exact .inr ⟨hlater.2, ⟨before, ttl, rest, rfl, hlater.1, rfl, by omega⟩, hlt⟩
  · rintro (⟨ttl, rfl, rfl, hpos⟩ | ⟨hu, ⟨before, ttl, rest, rfl, hrest, rfl, -⟩, hlt⟩)
    · refine ⟨uses, ttl, [], rfl, fun u hu => absurd hu List.not_mem_nil, rfl, ?_⟩
      exact Nat.add_lt_add_left hpos _
    · refine ⟨before, ttl, rest ++ [u], by simp, ?_, rfl, hlt⟩
      rw [List.forall_mem_append, List.forall_mem_singleton]
      exact ⟨hrest, hu⟩

theorem not_due_nil {start : Nat} {record : Record} {deadline : Nat} :
    ¬Due start [] record deadline := by
  rintro ⟨before, ttl, later, h, -⟩
  exact absurd h (by simp)

theorem fits_nil (start : Nat) : Fits start [] := by
  intro before record ttl later h
  exact absurd h (by simp)

theorem fits_concat {start : Nat} {uses : List Use} {u : Use} :
    Fits start (uses ++ [u]) ↔ Fits start uses ∧
      ∀ record ttl, u = .save record ttl → (clock start uses + ttl) / 1000 < clockLimit := by
  constructor
  · intro h
    refine ⟨?_, ?_⟩
    · rintro before record ttl later rfl
      exact h before record ttl (later ++ [u]) (by simp)
    · rintro record ttl rfl
      exact h uses record ttl [] rfl
  · rintro ⟨huses, hlast⟩ before record ttl later h
    rcases concat_eq_append_cons_iff.1 h with ⟨rfl, hu, rfl⟩ | ⟨rest, rfl, rfl⟩
    · exact hlast record ttl hu.symm
    · exact huses before record ttl rest rfl

/-! ## Entries -/

/-- Each identifier is there once. -/
def Distinct (m : Memory) : Prop := (m.entries.map Prod.fst).Nodup

namespace Distinct

variable {m : Memory} {now : Nat} {id : Id} {filed : Filed}

theorem filter (h : m.Distinct) (p : Id × Filed → Bool) : Distinct ⟨m.entries.filter p⟩ :=
  List.Nodup.sublist (List.filter_sublist.map Prod.fst) h

theorem save {record : Record} {ttl : Nat} {m₁ : Memory} (h : m.Distinct)
    (hsave : m.save now record ttl = .ok m₁) : m₁.Distinct := by
  obtain ⟨-, rfl⟩ := save_eq_ok_iff.1 hsave
  rw [Distinct, List.map_cons, List.nodup_cons]
  exact ⟨by simp [remove], h.filter _⟩

theorem load (h : m.Distinct) : (m.load now id).2.Distinct := by
  rcases load_snd now id m with hm | ⟨hm, -⟩
  · rwa [hm]
  · rw [hm]
    exact h.filter _

theorem holds_iff (h : m.Distinct) :
    m.Holds now id filed ↔ (id, filed) ∈ m.entries ∧ now < filed.deadline := by
  rw [Holds, find?, lookup_eq_some_iff_mem h]

/-- What is left when the store is purged is what is held. -/
theorem mem_purge (h : m.Distinct) :
    (id, filed) ∈ (m.purge now).entries ↔ m.Holds now id filed := by
  rw [h.holds_iff, purge, List.mem_filter, decide_eq_true_eq]

/-- Purging changes nothing that is held. -/
theorem holds_purge (h : m.Distinct) :
    (m.purge now).Holds now id filed ↔ m.Holds now id filed := by
  have hpurge : (m.purge now).Distinct := h.filter _
  rw [hpurge.holds_iff, h.mem_purge]
  exact ⟨fun hholds => hholds.1, fun hholds => ⟨hholds, hholds.2⟩⟩

/-- The records that are counted are those that are held, each under its identifier. -/
theorem live_eq (h : m.Distinct) (now : Nat) :
    ∃ ids : List Id, ids.Nodup ∧ (∀ id, id ∈ ids ↔ ∃ filed, m.Holds now id filed) ∧
      m.live now = ids.length := by
  refine ⟨(m.purge now).entries.map Prod.fst, h.filter _, fun id => ?_, ?_⟩
  · simp only [List.mem_map, Prod.exists, exists_and_right, exists_eq_right, h.mem_purge]
  · rw [List.length_map, live, List.countP_eq_length_filter]
    rfl

end Distinct

/-! ## One use -/

namespace Moment

variable {s s₁ : Moment} {u : Use}

theorem use_save {record : Record} {ttl : Nat} :
    s.use (.save record ttl) = .ok s₁ ↔
      ∃ m, s.memory.save s.now record ttl = .ok m ∧ s₁ = ⟨s.now, m⟩ := by
  simp only [use]
  cases s.memory.save s.now record ttl with
  | error c => simp [Except.map]
  | ok m => simp [Except.map, eq_comm]

/-- Uses only break down where a record is to live beyond the end of the clock. -/
theorem use_ok_iff :
    (∃ s₁, s.use u = .ok s₁) ↔
      ∀ record ttl, u = .save record ttl → (s.now + ttl) / 1000 < clockLimit := by
  cases u with
  | save record ttl =>
    simp only [use_save, save_eq_ok_iff]
    constructor
    · rintro ⟨s₁, m, ⟨hfits, -⟩, -⟩ record' ttl' heq
      cases heq
      exact hfits
    · intro h
      exact ⟨_, _, ⟨h record ttl rfl, rfl⟩, rfl⟩
  | _ => simp [use]

theorem now_use (h : s.use u = .ok s₁) : s₁.now = s.now + u.span := by
  cases u with
  | save record ttl =>
    obtain ⟨m, -, rfl⟩ := use_save.1 h
    rfl
  | _ =>
    cases h
    rfl

theorem distinct_use (hs : s.memory.Distinct) (h : s.use u = .ok s₁) : s₁.memory.Distinct := by
  cases u with
  | save record ttl =>
    obtain ⟨m, hsave, rfl⟩ := use_save.1 h
    exact hs.save hsave
  | load id =>
    cases h
    exact hs.load
  | remove id =>
    cases h
    exact hs.filter _
  | purge =>
    cases h
    exact hs.filter _
  | pause ms =>
    cases h
    exact hs

/-- What one use makes of what is held. -/
theorem holds_use (hs : s.memory.Distinct) (h : s.use u = .ok s₁) {id : Id} {record : Record}
    {deadline : Nat} :
    s₁.memory.Holds s₁.now id ⟨record, deadline⟩ ↔
      (∃ ttl, u = .save record ttl ∧ record.id = id ∧ deadline = s.now + ttl ∧ 0 < ttl) ∨
        ¬u.Settles id ∧ s.memory.Holds s.now id ⟨record, deadline⟩ ∧
          s.now + u.span < deadline := by
  -- What is held now has its deadline ahead, so for a use that takes no time that need not be
  -- said.
  have hahead {m : Memory} {now : Nat} :
      m.Holds now id ⟨record, deadline⟩ ↔ m.Holds now id ⟨record, deadline⟩ ∧ now < deadline :=
    ⟨fun hholds => ⟨hholds, hholds.2⟩, fun hholds => hholds.1⟩
  cases u with
  | save saved ttl =>
    obtain ⟨m, hsave, rfl⟩ := use_save.1 h
    obtain ⟨hself, hothers⟩ := find?_of_save hsave
    constructor
    · rintro ⟨hfind, hlt⟩
      by_cases hid : saved.id = id
      · subst hid
        cases hself.symm.trans hfind
        exact .inl ⟨ttl, rfl, rfl, rfl, Nat.lt_of_add_lt_add_left hlt⟩
      · rw [hothers id (Ne.symm hid)] at hfind
        exact .inr ⟨hid, ⟨hfind, hlt⟩, hlt⟩
    · rintro (⟨ttl, heq, rfl, rfl, hpos⟩ | ⟨hid, ⟨hfind, hlt⟩, -⟩)
      · cases heq
        exact ⟨hself, Nat.add_lt_add_left hpos s.now⟩
      · exact ⟨(hothers id (Ne.symm hid)).trans hfind, hlt⟩
  | load other =>
    cases h
    simp only [holds_load, reduceCtorEq, false_and, exists_false, false_or, Use.Settles,
      not_false_eq_true, true_and, Use.span, Nat.add_zero]
    exact hahead
  | remove other =>
    cases h
    simp only [holds_remove, reduceCtorEq, false_and, exists_false, false_or,
      Use.Settles, Use.span, Nat.add_zero, ← hahead, ne_eq, eq_comm]
  | purge =>
    cases h
    simp only [hs.holds_purge, reduceCtorEq, false_and, exists_false, false_or, Use.Settles,
      not_false_eq_true, true_and, Use.span, Nat.add_zero]
    exact hahead
  | pause ms =>
    cases h
    simp only [Holds, reduceCtorEq, false_and, exists_false, false_or, Use.Settles,
      not_false_eq_true, true_and, Use.span]
    constructor
    · rintro ⟨hfind, hlt⟩
      exact ⟨⟨hfind, by omega⟩, hlt⟩
    · rintro ⟨⟨hfind, -⟩, hlt⟩
      exact ⟨hfind, hlt⟩

theorem find?_eq_some_iff {id : Id} {record : Record} :
    s.find? id = some record ↔ ∃ deadline, s.memory.Holds s.now id ⟨record, deadline⟩ :=
  load_eq_some

end Moment

/-! ## Many uses -/

/-- A store and what happened to it agree. -/
structure Sound (start : Nat) (uses : List Use) (s : Moment) : Prop where
  now : s.now = clock start uses
  distinct : s.memory.Distinct
  holds : ∀ id record deadline,
    s.memory.Holds s.now id ⟨record, deadline⟩ ↔ record.id = id ∧ Due start uses record deadline

namespace Sound

variable {start : Nat} {uses : List Use} {s : Moment}

theorem init (start : Nat) : Sound start [] ⟨start, empty⟩ where
  now := rfl
  distinct := List.nodup_nil
  holds id record deadline := by
    constructor
    · rintro ⟨hfind, -⟩
      cases hfind
    · rintro ⟨-, hdue⟩
      exact absurd hdue not_due_nil

/-- They agree after one more use. -/
theorem use {s₁ : Moment} {u : Use} (hs : Sound start uses s) (h : s.use u = .ok s₁) :
    Sound start (uses ++ [u]) s₁ where
  now := by rw [Moment.now_use h, hs.now, clock_concat]
  distinct := Moment.distinct_use hs.distinct h
  holds id record deadline := by
    rw [Moment.holds_use hs.distinct h, due_concat, hs.holds, hs.now]
    constructor
    · rintro (⟨ttl, rfl, rfl, hdeadline, hpos⟩ | ⟨hu, ⟨rfl, hdue⟩, hlt⟩)
      · exact ⟨rfl, .inl ⟨ttl, rfl, hdeadline, hpos⟩⟩
      · exact ⟨rfl, .inr ⟨hu, hdue, hlt⟩⟩
    · rintro ⟨rfl, ⟨ttl, rfl, hdeadline, hpos⟩ | ⟨hu, hdue, hlt⟩⟩
      · exact .inl ⟨ttl, rfl, rfl, hdeadline, hpos⟩
      · exact .inr ⟨hu, ⟨rfl, hdue⟩, hlt⟩

/-- The store finds what is due. -/
theorem find?_eq_some_iff (hs : Sound start uses s) {id : Id} {record : Record} :
    s.find? id = some record ↔ record.id = id ∧ ∃ deadline, Due start uses record deadline := by
  simp only [Moment.find?_eq_some_iff, hs.holds, exists_and_left]

/-- The store counts the identifiers under which it finds something. -/
theorem live_eq (hs : Sound start uses s) :
    ∃ ids : List Id, ids.Nodup ∧ (∀ id, id ∈ ids ↔ s.find? id ≠ none) ∧ s.live = ids.length := by
  obtain ⟨ids, hnodup, hids, hlive⟩ := hs.distinct.live_eq s.now
  refine ⟨ids, hnodup, fun id => ?_, hlive⟩
  rw [hids, ← Option.isSome_iff_ne_none, Option.isSome_iff_exists]
  constructor
  · rintro ⟨⟨record, deadline⟩, hholds⟩
    exact ⟨record, Moment.find?_eq_some_iff.2 ⟨deadline, hholds⟩⟩
  · rintro ⟨record, hfind⟩
    obtain ⟨deadline, hholds⟩ := Moment.find?_eq_some_iff.1 hfind
    exact ⟨_, hholds⟩

end Sound

/-- A store agrees with any history that it came through. -/
theorem sound_of_after {start : Nat} {uses : List Use} {s : Moment}
    (h : after start uses = .ok s) : Sound start uses s := by
  induction uses using List.reverseRecOn generalizing s with
  | nil =>
    cases h
    exact .init start
  | append_singleton uses u ih =>
    rw [after_concat] at h
    cases hs : after start uses with
    | error c =>
      rw [hs] at h
      cases h
    | ok s₀ =>
      rw [hs] at h
      exact (ih hs).use h

/-- The store comes through a history if all deadlines are points of the clock. -/
theorem after_ok_iff {start : Nat} {uses : List Use} :
    (∃ s, after start uses = .ok s) ↔ Fits start uses := by
  induction uses using List.reverseRecOn with
  | nil => exact ⟨fun _ => fits_nil start, fun _ => ⟨_, rfl⟩⟩
  | append_singleton uses u ih =>
    rw [after_concat, fits_concat, ← ih]
    cases hs : after start uses with
    | error c => simp [Except.bind]
    | ok s =>
      have huse := Moment.use_ok_iff (s := s) (u := u)
      rw [(sound_of_after hs).now] at huse
      simpa [Except.bind] using huse

/-- Dropping what has expired takes no time. -/
theorem clock_sweep {start : Nat} {earlier later : List Use} {sweep : Use}
    (hsweep : sweep.Sweeps) :
    clock start (earlier ++ sweep :: later) = clock start (earlier ++ later) := by
  rw [clock, clock, List.foldl_append, List.foldl_append, List.foldl_cons,
    hsweep.span_eq, Nat.add_zero]

/-- Whether expired records are dropped in between or not, the same is due. -/
theorem due_sweep {start : Nat} {earlier later : List Use} {sweep : Use} (hsweep : sweep.Sweeps)
    {record : Record} {deadline : Nat} :
    Due start (earlier ++ sweep :: later) record deadline ↔
      Due start (earlier ++ later) record deadline := by
  induction later using List.reverseRecOn with
  | nil =>
    rw [due_concat, List.append_nil, hsweep.span_eq, Nat.add_zero]
    constructor
    · rintro (⟨ttl, rfl, -⟩ | ⟨-, hdue, -⟩)
      · exact absurd rfl (hsweep.ne_save record ttl)
      · exact hdue
    · intro hdue
      obtain ⟨-, -, -, -, -, -, hlt⟩ := id hdue
      exact .inr ⟨hsweep.not_settles _, hdue, hlt⟩
  | append_singleton later u ih =>
    rw [← List.cons_append, ← List.append_assoc, ← List.append_assoc, due_concat, due_concat, ih,
      clock_sweep hsweep]

/-- Whether expired records are dropped in between or not, the same deadlines are set. -/
theorem Fits.of_sweep {start : Nat} {earlier later : List Use} {sweep : Use}
    (hsweep : sweep.Sweeps) (h : Fits start (earlier ++ sweep :: later)) :
    Fits start (earlier ++ later) := by
  induction later using List.reverseRecOn with
  | nil =>
    rw [fits_concat] at h
    rw [List.append_nil]
    exact h.1
  | append_singleton later u ih =>
    rw [← List.cons_append, ← List.append_assoc, fits_concat, clock_sweep hsweep] at h
    rw [← List.append_assoc, fits_concat]
    exact ⟨ih h.1, h.2⟩

/-- Whether expired records are dropped in between or not, a store finds and counts the same. -/
theorem Sound.sweep {start : Nat} {earlier later : List Use} {sweep : Use} {s s₁ : Moment}
    (hsweep : sweep.Sweeps) (hs : Sound start (earlier ++ sweep :: later) s)
    (hs₁ : Sound start (earlier ++ later) s₁) :
    (∀ id, s₁.find? id = s.find? id) ∧ s₁.live = s.live := by
  have hfind (id : Id) : s₁.find? id = s.find? id := by
    refine Option.ext fun record => ?_
    simp only [hs.find?_eq_some_iff, hs₁.find?_eq_some_iff, due_sweep hsweep]
  refine ⟨hfind, ?_⟩
  obtain ⟨ids, hnodup, hids, hlive⟩ := hs.live_eq
  obtain ⟨ids₁, hnodup₁, hids₁, hlive₁⟩ := hs₁.live_eq
  have hperm : ids₁.Perm ids := by
    rw [List.perm_ext_iff_of_nodup hnodup₁ hnodup]
    intro id
    rw [hids, hids₁, hfind]
  rw [hlive, hlive₁, hperm.length_eq]

/-- **Records live for their time.** The store comes through a history, finds then under each
identifier the record that is due and nothing else, counts the identifiers under which it finds
one, and would find and count the same had expired records been dropped less often: this holds
exactly when all records are saved with deadlines that are points of the clock. -/
theorem timed_iff (start : Nat) (uses : List Use) :
    (∃ s, after start uses = .ok s ∧
      (∀ id record, s.find? id = some record ↔ record.id = id ∧
        ∃ deadline, Due start uses record deadline) ∧
      (∃ ids : List Id, ids.Nodup ∧ (∀ id, id ∈ ids ↔ s.find? id ≠ none) ∧ s.live = ids.length) ∧
      ∀ earlier sweep later, uses = earlier ++ sweep :: later → sweep.Sweeps →
        ∃ s₁, after start (earlier ++ later) = .ok s₁ ∧ (∀ id, s₁.find? id = s.find? id) ∧
          s₁.live = s.live) ↔
      Fits start uses := by
  constructor
  · rintro ⟨s, hs, -⟩
    exact after_ok_iff.1 ⟨s, hs⟩
  · intro hfits
    obtain ⟨s, hs⟩ := after_ok_iff.2 hfits
    have hsound := sound_of_after hs
    refine ⟨s, hs, fun id record => hsound.find?_eq_some_iff, hsound.live_eq, ?_⟩
    rintro earlier sweep later rfl hsweep
    obtain ⟨s₁, hs₁⟩ := after_ok_iff.2 (hfits.of_sweep hsweep)
    exact ⟨s₁, hs₁, hsound.sweep hsweep (sound_of_after hs₁)⟩

/-- A record with nothing in it but its identifier. -/
def bareRecord : Record := ⟨⟨"abc"⟩, none, none, [], default⟩

/-- A record is saved for a second, and again before it has ended. -/
def savedTwice : List Use :=
  [.save bareRecord 1000, .pause 600, .save bareRecord 1000, .pause 600, .purge]

/-- A record that is saved again is found after the time of the first save. -/
theorem timed_savedTwice :
    Fits 0 savedTwice ∧ ∃ s, after 0 savedTwice = .ok s ∧ s.find? ⟨"abc"⟩ = some bareRecord := by
  have hfits : Fits 0 savedTwice := after_ok_iff.1 ⟨_, rfl⟩
  obtain ⟨s, hs, hfind, -⟩ := (timed_iff 0 savedTwice).2 hfits
  have hdue : Due 0 savedTwice bareRecord 1600 :=
    ⟨[.save bareRecord 1000, .pause 600], 1000, [.pause 600, .purge],
      rfl, by simp [Use.Settles], rfl, by decide⟩
  exact ⟨hfits, s, hs, (hfind _ _).2 ⟨rfl, 1600, hdue⟩⟩

/-- The longest time to live that can be asked for in seconds, in milliseconds. -/
def endless : Nat := 18446744073709551615 * 1000

/-- A record that is saved for an endless time is due, but saving it breaks down. -/
theorem endless_save :
    Due 0 [.save bareRecord endless] bareRecord endless ∧
      after 0 [.save bareRecord endless] =
        .error ⟨"overflow when adding duration to instant"⟩ := by
  exact ⟨⟨[], endless, [], rfl, fun u hu => absurd hu List.not_mem_nil, by decide, by decide⟩, rfl⟩

end Session.Memory

end Intranet
