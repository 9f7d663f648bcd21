import Intranet.Proofs.Serving
import Intranet.Session.Memory

/-!
# The portal on the store in memory

What is filed under an identifier, operation by operation, and from it what serving one request
does to the store when no call is refused. A record counts as long as its deadline lies ahead; an
expired one may still be filed, so statements about sessions speak of `Holds` and not of `find?`.

Main results: `holds_load` (looking a session up changes no session), and the three things that
serving can do to the store: `serve_other` (nothing), `serve_signOut` (the session of the request
is removed) and `serve_signIn` (it is removed and another one is filed, or serving breaks down).
-/

namespace Intranet

open Intranet.Http (Request Response)

namespace Session

/-! ## Entries under keys -/

section Entries

variable {α β : Type} [DecidableEq α]

/-- What was dropped is not found. -/
theorem lookup_filter_self (key : α) (entries : List (α × β)) :
    (entries.filter fun (k, _) => k ≠ key).lookup key = none := by
  induction entries with
  | nil => rfl
  | cons entry rest ih =>
    obtain ⟨k, v⟩ := entry
    by_cases h : k = key
    · simpa [h] using ih
    · have hne : (key == k) = false := by simpa using fun heq => h heq.symm
      simpa [h, List.lookup_cons, hne] using ih

/-- What is under other keys stays. -/
theorem lookup_filter_of_ne {key other : α} (hne : other ≠ key) (entries : List (α × β)) :
    (entries.filter fun (k, _) => k ≠ key).lookup other = entries.lookup other := by
  induction entries with
  | nil => rfl
  | cons entry rest ih =>
    obtain ⟨k, v⟩ := entry
    by_cases h : k = key
    · subst h
      have hb : (other == k) = false := by simpa using hne
      simpa [List.lookup_cons, hb] using ih
    · simp only [ne_eq, h, not_false_eq_true, decide_true, List.filter_cons_of_pos,
        List.lookup_cons]
      cases other == k with
      | true => rfl
      | false => exact ih

/-- With each key once, what is found under a key is what is there with it. -/
theorem lookup_eq_some_iff_mem {entries : List (α × β)} (h : (entries.map Prod.fst).Nodup)
    {key : α} {value : β} : entries.lookup key = some value ↔ (key, value) ∈ entries := by
  induction entries with
  | nil => simp
  | cons entry rest ih =>
    obtain ⟨k, v⟩ := entry
    rw [List.map_cons, List.nodup_cons] at h
    obtain ⟨hnew, hrest⟩ := h
    by_cases hk : key = k
    · subst hk
      have hnot : (key, value) ∉ rest := fun hmem => hnew (List.mem_map.2 ⟨_, hmem, rfl⟩)
      simp [hnot, eq_comm]
    · have hne : (key == k) = false := by simpa using hk
      simp [List.lookup_cons, hne, hk, ih hrest]

end Entries

end Session

namespace Session.Memory

/-! ## What is filed -/

/-- A record that has not expired is filed under an identifier. -/
def Holds (m : Memory) (now : Nat) (id : Id) (filed : Filed) : Prop :=
  m.find? id = some filed ∧ now < filed.deadline

theorem find?_remove_self (id : Id) (m : Memory) : (m.remove id).find? id = none :=
  lookup_filter_self id m.entries

theorem find?_remove_of_ne {id other : Id} (hne : other ≠ id) (m : Memory) :
    (m.remove id).find? other = m.find? other :=
  lookup_filter_of_ne hne m.entries

/-- What is filed after a removal was filed before. -/
theorem find?_of_remove {id other : Id} {m : Memory} {filed : Filed}
    (h : (m.remove id).find? other = some filed) : m.find? other = some filed := by
  by_cases hne : other = id
  · subst hne
    rw [find?_remove_self] at h
    cases h
  · rwa [find?_remove_of_ne hne] at h

theorem save_eq_ok_iff {now ttl : Nat} {record : Record} {m m₁ : Memory} :
    m.save now record ttl = .ok m₁ ↔ (now + ttl) / 1000 < clockLimit ∧
      m₁ = ⟨(record.id, ⟨record, now + ttl⟩) :: (m.remove record.id).entries⟩ := by
  simp only [Memory.save]
  split
  · next hfits => simp [hfits, eq_comm]
  · next hfits => simp [hfits]

/-- Filing a record puts it under its identifier and leaves the others as they are. -/
theorem find?_of_save {now ttl : Nat} {record : Record} {m m₁ : Memory}
    (h : m.save now record ttl = .ok m₁) :
    m₁.find? record.id = some ⟨record, now + ttl⟩ ∧
      ∀ other, other ≠ record.id → m₁.find? other = m.find? other := by
  obtain ⟨-, rfl⟩ := save_eq_ok_iff.1 h
  constructor
  · simp [find?]
  · intro other hne
    have hb : (other == record.id) = false := by simpa using hne
    rw [← find?_remove_of_ne hne m]
    simp [find?, List.lookup_cons, hb]

/-- After a record was removed the others are left. -/
theorem holds_remove {now : Nat} {id other : Id} {m : Memory} {filed : Filed} :
    (m.remove id).Holds now other filed ↔ other ≠ id ∧ m.Holds now other filed := by
  by_cases hid : other = id
  · subst hid
    simp [Holds, find?_remove_self]
  · simp [Holds, find?_remove_of_ne hid, hid]

/-- After a record was saved it is held, and the others are left. -/
theorem holds_save {now ttl : Nat} {record : Record} {m m₁ : Memory} {other : Id} {filed : Filed}
    (httl : 0 < ttl) (hsave : m.save now record ttl = .ok m₁) :
    m₁.Holds now other filed ↔
      other = record.id ∧ filed = ⟨record, now + ttl⟩ ∨
        other ≠ record.id ∧ m.Holds now other filed := by
  obtain ⟨hself, hrest⟩ := find?_of_save hsave
  by_cases hid : other = record.id
  · subst hid
    simp only [Holds, hself, true_and, ne_eq, not_true_eq_false, false_and, or_false]
    constructor
    · rintro ⟨heq, -⟩
      exact (Option.some.inj heq).symm
    · rintro rfl
      exact ⟨rfl, Nat.lt_add_of_pos_right httl⟩
  · simp [Holds, hrest other hid, hid]

/-! ## Looking up -/

theorem load_eq_some {now : Nat} {id : Id} {m : Memory} {record : Record} :
    (m.load now id).1 = some record ↔ ∃ deadline, m.Holds now id ⟨record, deadline⟩ := by
  unfold load Holds
  cases hf : m.find? id with
  | none => simp
  | some filed =>
    by_cases hlt : now < filed.deadline
    · simp only [hlt, if_true, Option.some.injEq]
      constructor
      · rintro rfl
        exact ⟨filed.deadline, rfl, hlt⟩
      · rintro ⟨deadline, rfl, -⟩
        rfl
    · simp only [hlt, if_false, Option.some.injEq]
      constructor
      · intro h
        cases h
      · rintro ⟨deadline, rfl, hd⟩
        exact absurd hd hlt

/-- Looking up drops what is filed under the identifier at most. -/
theorem load_snd (now : Nat) (id : Id) (m : Memory) :
    (m.load now id).2 = m ∨
      (m.load now id).2 = m.remove id ∧ ∀ filed, ¬m.Holds now id filed := by
  unfold load Holds
  cases hf : m.find? id with
  | none => exact .inl rfl
  | some filed =>
    by_cases hlt : now < filed.deadline
    · simp [hlt]
    · refine .inr ⟨by simp [hlt], ?_⟩
      rintro other ⟨heq, hd⟩
      cases heq
      exact hlt hd

theorem find?_of_load {now : Nat} {id other : Id} {m : Memory} {filed : Filed}
    (h : (m.load now id).2.find? other = some filed) : m.find? other = some filed := by
  rcases load_snd now id m with hm | ⟨hm, -⟩
  · rwa [hm] at h
  · rw [hm] at h
    exact find?_of_remove h

theorem find?_load_of_ne {now : Nat} {id other : Id} (hne : other ≠ id) (m : Memory) :
    (m.load now id).2.find? other = m.find? other := by
  rcases load_snd now id m with hm | ⟨hm, -⟩
  · rw [hm]
  · rw [hm, find?_remove_of_ne hne]

/-- Looking up changes no session. -/
theorem holds_load {now : Nat} {id other : Id} {m : Memory} {filed : Filed} :
    (m.load now id).2.Holds now other filed ↔ m.Holds now other filed := by
  rcases load_snd now id m with hm | ⟨hm, hgone⟩
  · rw [hm]
  · rw [hm]
    unfold Holds
    by_cases hne : other = id
    · subst hne
      rw [find?_remove_self]
      constructor
      · rintro ⟨h, -⟩
        cases h
      · intro h
        exact absurd h (hgone filed)
    · rw [find?_remove_of_ne hne]

end Session.Memory

/-! ## The session of a request -/

namespace Session

variable {k : Keeper} {headers : List String} {w : World Memory}

/-- The record that the store has for the cookies of a request. -/
def Keeper.live? (k : Keeper) (headers : List String) (w : World Memory) : Option Record :=
  (k.sessionId? headers).bind fun id => (w.store.load w.clock id).1

/-- The store once the session of a request was looked up. -/
def Keeper.looked (k : Keeper) (headers : List String) (w : World Memory) : Memory :=
  match k.sessionId? headers with
  | none => w.store
  | some id => (w.store.load w.clock id).2

/-- The store once the session of a request is removed. -/
def Keeper.cleared (k : Keeper) (headers : List String) (w : World Memory) : Memory :=
  ((k.live? headers w).map Record.id).elim (k.looked headers w) (k.looked headers w).remove

/-- A session that is started or filed at a time has an end that can be written down. -/
def Keeper.Lasts (k : Keeper) (now : Nat) : Prop :=
  (∃ t, expiry now k.ttl = .ok t) ∧ (now + k.ttl * 1000) / 1000 < Memory.clockLimit

/-- The session with which a request is handled: that of its record, or a new one if there is
none. -/
inductive Opened (k : Keeper) (headers : List String) (w : World Memory) : Handle → Prop
  | found {record : Record} :
      k.live? headers w = some record → Opened k headers w (.ofRecord record)
  | started {id : Id} {t : Instant} : k.live? headers w = none → Opened k headers w (.fresh id t)

/-- Signing out removes the identifier of the record. -/
theorem Opened.plan_destroy {h : Handle} (ho : Opened k headers w h) :
    h.destroy.takePlan.1 = .remove ((k.live? headers w).map Record.id).toList := by
  cases ho with
  | found hl => rw [hl]; rfl
  | started hl => rw [hl]; rfl

/-- Signing in gives the identifier of the record up and files the session under its new one. -/
theorem Opened.plan_login {h : Handle} (ho : Opened k headers w h) (id : Id) (user : Principal)
    (secret : Option String) :
    (h.login id user secret).takePlan.1 =
      .save (h.login id user secret).record ((k.live? headers w).map Record.id) := by
  cases ho with
  | found hl => rw [hl]; rfl
  | started hl => rw [hl]; rfl

/-! ### What looking up and removing leave -/

section Left

variable {id : Id} {filed : Filed}

theorem find?_looked_of_ne (h : k.sessionId? headers ≠ some id) :
    (k.looked headers w).find? id = w.store.find? id := by
  unfold Keeper.looked
  cases hid : k.sessionId? headers with
  | none => rfl
  | some presented =>
    refine Memory.find?_load_of_ne ?_ w.store
    rintro rfl
    exact h hid

theorem find?_of_looked (h : (k.looked headers w).find? id = some filed) :
    w.store.find? id = some filed := by
  unfold Keeper.looked at h
  cases hid : k.sessionId? headers with
  | none => rwa [hid] at h
  | some presented =>
    rw [hid] at h
    exact Memory.find?_of_load h

theorem holds_looked :
    (k.looked headers w).Holds w.clock id filed ↔ w.store.Holds w.clock id filed := by
  unfold Keeper.looked
  cases k.sessionId? headers with
  | none => exact Iff.rfl
  | some presented => exact Memory.holds_load

/-- The record of a request is filed under the identifier that the request presents. -/
theorem live?_eq_some {record : Record} :
    k.live? headers w = some record ↔
      ∃ id deadline, k.sessionId? headers = some id ∧
        w.store.Holds w.clock id ⟨record, deadline⟩ := by
  unfold Keeper.live?
  rw [Option.bind_eq_some_iff]
  constructor
  · rintro ⟨id, hid, hl⟩
    obtain ⟨deadline, hd⟩ := Memory.load_eq_some.1 hl
    exact ⟨id, deadline, hid, hd⟩
  · rintro ⟨id, deadline, hid, hd⟩
    exact ⟨id, hid, Memory.load_eq_some.2 ⟨deadline, hd⟩⟩

theorem find?_of_cleared (h : (k.cleared headers w).find? id = some filed) :
    w.store.find? id = some filed := by
  unfold Keeper.cleared at h
  cases hl : k.live? headers w with
  | none =>
    rw [hl] at h
    exact find?_of_looked h
  | some record =>
    rw [hl] at h
    exact find?_of_looked (Memory.find?_of_remove h)

/-- Each record is filed under its own identifier. -/
def Memory.Orderly (m : Memory) : Prop :=
  ∀ id filed, m.find? id = some filed → filed.record.id = id

theorem find?_cleared_of_ne (hown : w.store.Orderly) (h : k.sessionId? headers ≠ some id) :
    (k.cleared headers w).find? id = w.store.find? id := by
  unfold Keeper.cleared
  cases hl : k.live? headers w with
  | none => exact find?_looked_of_ne h
  | some record =>
    obtain ⟨presented, deadline, hid, hfind, -⟩ := live?_eq_some.1 hl
    have hrecord : record.id = presented := hown presented _ hfind
    show ((k.looked headers w).remove record.id).find? id = _
    rw [Memory.find?_remove_of_ne, find?_looked_of_ne h]
    rintro rfl
    exact h (hid.trans (congrArg some hrecord.symm))

/-- Removing the session of a request ends the one that it presents, and no other. -/
theorem holds_cleared (hown : w.store.Orderly) :
    (k.cleared headers w).Holds w.clock id filed ↔
      k.sessionId? headers ≠ some id ∧ w.store.Holds w.clock id filed := by
  by_cases h : k.sessionId? headers = some id
  · constructor
    · rintro ⟨hfind, hlt⟩
      have hl : k.live? headers w = some filed.record :=
        live?_eq_some.2 ⟨id, filed.deadline, h, find?_of_cleared hfind, hlt⟩
      have hrecord : filed.record.id = id := hown id filed (find?_of_cleared hfind)
      unfold Keeper.cleared at hfind
      rw [hl, Option.map_some, hrecord] at hfind
      exact absurd hfind (by simp [Memory.find?_remove_self])
    · rintro ⟨hne, -⟩
      exact absurd h hne
  · unfold Memory.Holds
    rw [find?_cleared_of_ne hown h]
    exact ⟨fun hholds => ⟨h, hholds⟩, fun hholds => hholds.2⟩

end Left

/-! ### Finding, filing and removing -/

theorem exec_load_memory (id : Id) (hout : w.outage = .none) :
    Storing.exec (Storing.load Memory.store id) w =
      (.ok (.ok (w.store.load w.clock id).1),
        { w.announced (.load id) with store := (w.store.load w.clock id).2 }) := by
  rw [Storing.exec_load, hout]
  rfl

/-- A request finds the session of its record or starts a new one, unless starting one breaks
down. -/
theorem resolve_memory (k : Keeper) (headers : List String) (hout : w.outage = .none) :
    ∃ w₁, w₁.store = k.looked headers w ∧
      ((∃ h, Opened k headers w h ∧
          Storing.exec (k.resolve Memory.store headers) w = (.ok (.ok h), w₁)) ∨
        k.live? headers w = none ∧ ¬k.Lasts w.clock ∧
          ∃ c, Storing.exec (k.resolve Memory.store headers) w = (.error c, w₁)) := by
  have hshort {c : Crash} (he : expiry w.clock k.ttl = .error c) : ¬k.Lasts w.clock := by
    rintro ⟨⟨t, ht⟩, -⟩
    rw [he] at ht
    cases ht
  cases hid : k.sessionId? headers with
  | none =>
    have hlive : k.live? headers w = none := by simp [Keeper.live?, hid]
    have hlooked : k.looked headers w = w.store := by simp [Keeper.looked, hid]
    rw [exec_resolve_none hid, exec_start, hlooked]
    cases he : expiry w.clock k.ttl with
    | error c => exact ⟨w, rfl, .inr ⟨hlive, hshort he, c, rfl⟩⟩
    | ok t => exact ⟨{ w with drawn := w.drawn + 1 }, rfl, .inl ⟨_, .started hlive, rfl⟩⟩
  | some id =>
    have hlive : k.live? headers w = (w.store.load w.clock id).1 := by simp [Keeper.live?, hid]
    have hlooked : k.looked headers w = (w.store.load w.clock id).2 := by simp [Keeper.looked, hid]
    rw [exec_resolve_some hid, exec_load_memory id hout, hlooked]
    cases hl : (w.store.load w.clock id).1 with
    | some record => exact ⟨_, rfl, .inl ⟨_, .found (hlive.trans hl), rfl⟩⟩
    | none =>
      simp only [exec_start, World.announced]
      cases he : expiry w.clock k.ttl with
      | error c => exact ⟨_, rfl, .inr ⟨hlive.trans hl, hshort he, c, rfl⟩⟩
      | ok t => exact ⟨_, rfl, .inl ⟨_, .started (hlive.trans hl), rfl⟩⟩

/-- Removing the identifiers of a plan. -/
theorem exec_carryOut_remove (k : Keeper) (id? : Option Id) (hout : w.outage = .none) :
    ∃ w₁, Storing.exec (k.carryOut Memory.store (.remove id?.toList)) w =
        (.ok (.ok (some k.clearingCookie)), w₁) ∧
      w₁.store = id?.elim w.store w.store.remove := by
  cases id? with
  | none => exact ⟨w, rfl, rfl⟩
  | some id =>
    simp only [Keeper.carryOut, Option.toList_some, List.forIn_cons, List.forIn_nil,
      Storing.exec_bind, Storing.exec_remove, hout, Outage.none, Storing.exec_pure]
    exact ⟨_, rfl, rfl⟩

/-- Filing the record of a plan: the identifier that was given up is removed first, also when
filing breaks down after it. -/
theorem exec_carryOut_save (k : Keeper) (record : Record) (replaced : Option Id)
    (hout : w.outage = .none) :
    ∃ w₁, (w₁.store = replaced.elim w.store w.store.remove ∧ ¬k.Lasts w.clock ∧
        ∃ c, Storing.exec (k.carryOut Memory.store (.save record replaced)) w = (.error c, w₁)) ∨
      ∃ t, (replaced.elim w.store w.store.remove).save w.clock { record with expiresAt := t }
          (k.ttl * 1000) = .ok w₁.store ∧
        Storing.exec (k.carryOut Memory.store (.save record replaced)) w =
          (.ok (.ok (some (k.sessionCookie record.id))), w₁) := by
  -- what follows the removal, in the world that the removal leaves
  have hrest (v : World Memory) (hclock : v.clock = w.clock) (hv : v.outage = .none) :
      ∃ w₁, (w₁.store = v.store ∧ ¬k.Lasts w.clock ∧
          ∃ c, Storing.exec (k.carryOut Memory.store (.save record none)) v = (.error c, w₁)) ∨
        ∃ t, v.store.save w.clock { record with expiresAt := t } (k.ttl * 1000) = .ok w₁.store ∧
          Storing.exec (k.carryOut Memory.store (.save record none)) v =
            (.ok (.ok (some (k.sessionCookie record.id))), w₁) := by
    simp only [Keeper.carryOut, Storing.exec_bind, Storing.exec_get, hclock]
    cases he : expiry w.clock k.ttl with
    | error c =>
      refine ⟨v, .inl ⟨rfl, ?_, c, rfl⟩⟩
      rintro ⟨⟨t, ht⟩, -⟩
      rw [he] at ht
      cases ht
    | ok t =>
      simp only [Storing.exec_orCrash_ok, Storing.exec_save, hv, Outage.none, hclock]
      show ∃ w₁ : World Memory, _
      have hstore :
          Memory.store.save w.clock { record with expiresAt := t } (k.ttl * 1000) v.store =
          v.store.save w.clock { record with expiresAt := t } (k.ttl * 1000) := rfl
      rw [hstore]
      cases hs : v.store.save w.clock { record with expiresAt := t } (k.ttl * 1000) with
      | error c =>
        refine ⟨v.announced (.save { record with expiresAt := t } (k.ttl * 1000)),
          .inl ⟨rfl, ?_, c, rfl⟩⟩
        rintro ⟨-, hlimit⟩
        simp [Memory.save, hlimit] at hs
      | ok m =>
        exact ⟨{ v.announced (.save { record with expiresAt := t } (k.ttl * 1000)) with
          store := m }, .inr ⟨t, hs, rfl⟩⟩
  cases replaced with
  | none => exact hrest w rfl hout
  | some old =>
    have hremove : Storing.exec (k.carryOut Memory.store (.save record (some old))) w =
        Storing.exec (k.carryOut Memory.store (.save record none))
          { w.announced (.remove old) with store := w.store.remove old } := by
      simp only [Keeper.carryOut, Storing.exec_bind, Storing.exec_remove, hout, Outage.none]
      rfl
    rw [hremove]
    exact hrest { w.announced (.remove old) with store := w.store.remove old } rfl hout

end Session

/-! ## What serving does to the store -/

namespace Portal

open Session (World Memory Storing Opened Record)

variable {p : Portal} {r : Request} {w : World Memory}

/-- A request that signs nobody in and nobody out changes no session. -/
theorem serve_other (hreg : p.registry = Graphql.portalRegistry) (hout : w.outage = .none)
    (hin : p.signsIn? w.ledger.directoryCalls r = none) (hstay : ¬SignsOut r) :
    ((p.serve Memory.store r).exec w).2.store = p.keeper.looked r.cookieHeaders w := by
  obtain ⟨w₁, hstore, hcases⟩ := Session.resolve_memory p.keeper r.cookieHeaders hout
  have hquiet := Session.quiet_resolve p.keeper Memory.store r.cookieHeaders w
  rcases hcases with ⟨h, -, hf⟩ | ⟨-, -, c, hf⟩
  · rw [hf] at hquiet
    have hearlier : w₁.ledger.directoryCalls = w.ledger.directoryCalls :=
      congrArg Calls.directory hquiet.calls
    have hkeep := (handle_other (p := p) (s := scene h w₁) hreg
      (by rw [← hin]; exact congrArg (p.signsIn? · r) hearlier) hstay).1
    rw [exec_serve_kept hf hkeep]
    exact hstore
  · rw [exec_serve, exec_withSession_crashed hf]
    exact hstore

/-- A request that signs out removes its session. -/
theorem serve_signOut (hout : w.outage = .none) (hleave : SignsOut r) :
    ((p.serve Memory.store r).exec w).2.store = p.keeper.cleared r.cookieHeaders w := by
  obtain ⟨w₁, hstore, hcases⟩ := Session.resolve_memory p.keeper r.cookieHeaders hout
  have hquiet := Session.quiet_resolve p.keeper Memory.store r.cookieHeaders w
  rcases hcases with ⟨h, ho, hf⟩ | ⟨hlive, -, c, hf⟩
  · rw [hf] at hquiet
    obtain ⟨l, -, hexec⟩ := handle_signOut (p := p) (s := scene h w₁) hleave
    have hhandled : p.handleWith r h w₁ =
        (.empty 204, h.destroy, { w₁ with ledger := l }) := by
      rw [handleWith_eq, hexec]
      rfl
    obtain ⟨w₂, hdone, hstore₂⟩ := Session.exec_carryOut_remove (w := { w₁ with ledger := l })
      p.keeper ((p.keeper.live? r.cookieHeaders w).map Record.id) (hquiet.outage.trans hout)
    rw [exec_serve, exec_withSession_found hf, hhandled, ho.plan_destroy, hdone]
    show w₂.store = _
    rw [hstore₂]
    show Option.elim _ w₁.store w₁.store.remove = _
    rw [hstore]
    rfl
  · rw [exec_serve, exec_withSession_crashed hf]
    show w₁.store = _
    rw [hstore, Session.Keeper.cleared, hlive]
    rfl

/-- The headers that the filter and the finishing touch leave as they are. -/
theorem setCookies_finish (r : Request) (response : Response) :
    (finish r response).setCookies = response.setCookies := by
  have hbody (x : Response) :
      (if r.method = "HEAD" then { x with body := [] } else x).setCookies = x.setCookies := by
    split <;> rfl
  simp only [finish]
  rw [hbody]
  cases allowed? r with
  | none => rfl
  | some methods => simp [Response.setCookies, Response.withHeader, List.filter_append]

/-- A record of someone who signed in with a password. -/
structure Bears (record : Record) (user : Principal) (password : String) : Prop where
  principal : record.principal = some user
  credential : record.credential = some password
  admin : Members.get? Session.adminClaim record.claims = some (.bool user.isAdmin)

/-- A request that signs someone in removes its session, and unless serving breaks down it files
the session of that person under an identifier that was just drawn, and hands the cookie of it
out. -/
theorem serve_signIn {user : Principal} {password : String} (hout : w.outage = .none)
    (hin : p.signsIn? w.ledger.directoryCalls r = some (user, password)) :
    (¬p.keeper.Lasts w.clock ∧ (∃ c, ((p.serve Memory.store r).exec w).1 = .error c) ∧
        ((p.serve Memory.store r).exec w).2.store = p.keeper.cleared r.cookieHeaders w) ∨
      ∃ n record response, w.drawn ≤ n ∧ n < ((p.serve Memory.store r).exec w).2.drawn ∧
        ((p.serve Memory.store r).exec w).1 = .ok response ∧
        response.setCookies = [("set-cookie", p.keeper.sessionCookie (p.keeper.ids n))] ∧
        (p.keeper.cleared r.cookieHeaders w).save w.clock record (p.keeper.ttl * 1000) =
          .ok ((p.serve Memory.store r).exec w).2.store ∧
        record.id = p.keeper.ids n ∧ Bears record user password := by
  obtain ⟨w₁, hstore, hcases⟩ := Session.resolve_memory p.keeper r.cookieHeaders hout
  have hquiet := Session.quiet_resolve p.keeper Memory.store r.cookieHeaders w
  rcases hcases with ⟨h, ho, hf⟩ | ⟨hlive, hshort, c, hf⟩
  · rw [hf] at hquiet
    have hearlier : w₁.ledger.directoryCalls = w.ledger.directoryCalls :=
      congrArg Calls.directory hquiet.calls
    obtain ⟨login, hexec⟩ := handle_signIn (p := p) (s := scene h w₁) (r := r)
      (hin ▸ congrArg (p.signsIn? · r) hearlier)
    let signed := h.login (p.keeper.ids w₁.drawn) user (some password)
    let handled : World Memory :=
      { w₁ with ledger := w₁.ledger.signedIn login password user, drawn := w₁.drawn + 1 }
    have hhandled : p.handleWith r h w₁ =
        (.json 200 (user.view user.isAdmin), signed, handled) := by
      rw [handleWith_eq, hexec]
      rfl
    have hcleared : ((p.keeper.live? r.cookieHeaders w).map Record.id).elim handled.store
        handled.store.remove = p.keeper.cleared r.cookieHeaders w := by
      show Option.elim _ w₁.store w₁.store.remove = _
      rw [hstore]
      rfl
    have hclock : handled.clock = w.clock := hquiet.clock
    have hsteady := Session.quiet_carryOut p.keeper Memory.store
      (.save signed.record ((p.keeper.live? r.cookieHeaders w).map Record.id)) handled
    have hout₁ : handled.outage = .none := hquiet.outage.trans hout
    obtain ⟨w₂, hdone⟩ := Session.exec_carryOut_save p.keeper signed.record
      ((p.keeper.live? r.cookieHeaders w).map Record.id) hout₁
    rw [hcleared, hclock] at hdone
    have hplan : signed.takePlan.1 = _ := ho.plan_login _ _ _
    rw [exec_serve, exec_withSession_found hf, hhandled]
    dsimp only
    rw [hplan]
    rcases hdone with ⟨hstore₂, hshort, c, hdone⟩ | ⟨t, hsave, hdone⟩
    · rw [hdone]
      exact .inl ⟨hshort, ⟨c, rfl⟩, hstore₂⟩
    · rw [hdone] at hsteady ⊢
      refine .inr ⟨w₁.drawn, { signed.record with expiresAt := t }, _, hquiet.drawn,
        hsteady.drawn, rfl, ?_, hsave, rfl, rfl, rfl, ?_⟩
      · rw [setCookies_finish]
        rfl
      · exact Members.get?_insert_self _ _ _
  · rw [exec_serve, exec_withSession_crashed hf]
    refine .inl ⟨hshort, ⟨c, rfl⟩, ?_⟩
    show w₁.store = _
    rw [hstore, Session.Keeper.cleared, hlive]
    rfl

end Portal

end Intranet
