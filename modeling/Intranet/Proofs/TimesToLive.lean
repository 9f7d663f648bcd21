import Intranet.Proofs.Commits
import Intranet.Proofs.Cookies
import Intranet.Proofs.Settings
import Intranet.Session.Shared

/-!
# How long sessions live

The time that sessions live is configured once, in seconds, and is needed in three places: for the
end that a record is given, for the store that files the record, and for the cookie. Each of them
has a range of its own.

* `lifeSpan`, `endAfter` — the time that a record is given: the configured one, or a year if that
  cannot be added to a date;
* `Fits`, `expiry_eq` — the times for which such an end is found;
* `maxAge_sessionCookie` — the life of the cookie, with the longest one as its limit;
* `saving_seconds` — the shared server is told the configured time;
* `Filing`, `filing_carryOut` — what a commit of a changed session files, whichever calls are
  refused;
* `lifetimes_agree` — all three agree, for all settings that pass the check.
-/

namespace Intranet

namespace Session

/-! ## The end of a record -/

/-- The seconds that the record of a session is given. -/
def lifeSpan (ttl : Nat) : Nat := if ttl * 1000 ≤ longestSpan then ttl else 365 * 86400

/-- So many seconds after a time in milliseconds. -/
def endAfter (now seconds : Nat) : Instant :=
  { Instant.ofMillis now with seconds := (Instant.ofMillis now).seconds + seconds }

/-- The start of the year 2101, in milliseconds. -/
def endOf2100 : Nat := 4133980800000

/-- A time to live for which an end is found: it cannot be added to a date at all, or it does not
lead beyond the last date. -/
def Fits (now ttl : Nat) : Prop :=
  longestSpan < ttl * 1000 ∨ (now / 1000 + ttl : Nat) ≤ Instant.lastSecond

theorem expiry_eq {now ttl : Nat} (hnow : now < endOf2100) (hfits : Fits now ttl) :
    expiry now ttl = .ok (endAfter now (lifeSpan ttl)) := by
  have hsum : (now / 1000 + lifeSpan ttl : Nat) ≤ Instant.lastSecond := by
    rw [lifeSpan]
    unfold Instant.lastSecond
    rcases hfits with hlong | hshort
    · rw [if_neg (Nat.not_le.2 hlong)]
      unfold endOf2100 at hnow
      omega
    · split
      · exact hshort
      · unfold endOf2100 at hnow
        omega
  have hheld : (endAfter now (lifeSpan ttl)).isHeld = true := by
    have hseconds : (endAfter now (lifeSpan ttl)).seconds = (now / 1000 + lifeSpan ttl : Nat) := by
      simp [endAfter, Instant.ofMillis]
    rw [Instant.isHeld, hseconds, Bool.and_eq_true, decide_eq_true_iff, decide_eq_true_iff]
    exact ⟨by unfold Instant.firstSecond; omega, hsum⟩
  have hadd : (Instant.ofMillis now).addSeconds? (lifeSpan ttl) =
      some (endAfter now (lifeSpan ttl)) :=
    if_pos hheld
  rw [lifeSpan] at hadd
  rw [expiry, hadd]
  rfl

/-! ## The life of the cookie -/

/-- A header that sets a cookie for so many seconds: its last attribute says so. -/
def LastsFor (header : String) (seconds : Nat) : Prop :=
  ("; Max-Age=" ++ toString seconds).toList <:+ header.toList

/-- The cookie of a session lives as long as the session, with the longest life of cookies as its
limit. -/
theorem maxAge_sessionCookie {k : Keeper} {id : Id} (h : k.sessionCookie id ≠ "") :
    LastsFor (k.sessionCookie id) (min k.ttl Keeper.longestAge) := by
  rw [sessionCookie_eq] at h ⊢
  split at h
  · next hvalue =>
    have hattributes :
        "; SameSite=Lax; Path=/; Max-Age=" = "; SameSite=Lax; Path=/" ++ "; Max-Age=" := by
      decide
    rw [if_pos hvalue]
    refine ⟨(k.cookieName ++ "=" ++ k.signer.sign id ++ "; SameSite=Lax; Path=/").toList, ?_⟩
    simp only [Keeper.cookieText, hattributes, String.toList_append, List.append_assoc]
  · exact absurd rfl h

/-- There is a cookie when its name and the identifier can stand in a header. -/
theorem sessionCookie_ne_empty {k : Keeper} {id : Id}
    (hname : ∀ c ∈ k.cookieName.toList, IsHeaderChar c)
    (hid : ∀ c ∈ id.text.toList, IsHeaderChar c) : k.sessionCookie id ≠ "" := by
  rw [sessionCookie_eq, if_pos (isHeaderValue_cookieText hname hid)]
  exact cookieText_ne_empty k id

/-! ## The life on the shared server -/

/-- The server is told whole seconds, as many as are configured. -/
theorem saving_seconds (record : Record) {ttl : Nat} (h : 0 < ttl) :
    Shared.saving record (ttl * 1000) = .setFor (Shared.key record.id) record.text ttl := by
  rw [Shared.saving, Nat.mul_div_cancel ttl (by decide), Nat.max_eq_left h]

/-! ## Commits -/

section Commits

variable {σ : Type} {s : Store σ} {w : World σ} {k : Keeper} {record : Record} {t : Instant}

/-- Filing a record with this end: whatever is saved has this end and the configured time, and
where nothing is refused, it is saved and the cookie of the session is set. -/
structure SavedAs (k : Keeper) (record : Record) (t : Instant) (calls : List StoreCall)
    (outcome : Except StoreError (Option String)) : Prop where
  saved : ∀ found ms, .save found ms ∈ calls → found = record.endingAt t ∧ ms = k.ttl * 1000
  done : ∀ cookie, outcome = .ok cookie →
    .save (record.endingAt t) (k.ttl * 1000) ∈ calls ∧ cookie = some (k.sessionCookie record.id)

/-- Work that files a record with this end, and does not break down. -/
def Filing (k : Keeper) (record : Record) (t : Instant) (work : Storing σ (Option String))
    (w : World σ) : Prop :=
  ∃ outcome w₁ calls, Storing.exec work w = (.ok outcome, w₁) ∧
    w₁.storeCalls = w.storeCalls ++ calls ∧ SavedAs k record t calls outcome

theorem filing_save (hend : expiry w.clock k.ttl = .ok t)
    (hfiles : ∀ record st, ∃ st₁, s.save w.clock record (k.ttl * 1000) st = .ok st₁) :
    Filing k record t (k.carryOut s (.save record none)) w := by
  obtain ⟨st₁, hst₁⟩ := hfiles (record.endingAt t) w.store
  have hsaved : ∀ found ms, StoreCall.save found ms ∈ [.save (record.endingAt t) (k.ttl * 1000)] →
      found = record.endingAt t ∧ ms = k.ttl * 1000 := by
    intro found ms hmem
    cases List.mem_singleton.1 hmem
    exact ⟨rfl, rfl⟩
  rw [Filing, carryOut_eq, Storing.exec_bind, exec_carryOn_save, hend]
  dsimp only
  cases w.outage w.storeCalls.length (.save (record.endingAt t) (k.ttl * 1000)) with
  | some e => exact ⟨_, _, _, rfl, rfl, hsaved, nofun⟩
  | none =>
    rw [hst₁]
    refine ⟨_, _, _, rfl, rfl, hsaved, fun cookie hcookie => ?_⟩
    cases hcookie
    exact ⟨List.mem_singleton_self _, rfl⟩

/-- Carrying out the plan to save a record files it, whether or not an identifier was given up. -/
theorem filing_carryOut (hend : expiry w.clock k.ttl = .ok t)
    (hfiles : ∀ record st, ∃ st₁, s.save w.clock record (k.ttl * 1000) st = .ok st₁)
    (old? : Option Id) :
    Filing k record t (k.carryOut s (.save record old?)) w := by
  cases old? with
  | none => exact filing_save hend hfiles
  | some old =>
    have hplan : k.carryOut s (.save record (some old)) =
        (do Storing.remove s old; k.carryOut s (.save record none)) := rfl
    rw [Filing, hplan, Storing.exec_bind, Storing.exec_remove]
    cases w.outage w.storeCalls.length (.remove old) with
    | some e => exact ⟨_, _, [.remove old], rfl, rfl, by simp, nofun⟩
    | none =>
      obtain ⟨outcome, w₁, calls, hrun, hcalls, hfiled⟩ : Filing k record t
          (k.carryOut s (.save record none))
          { w.announced (.remove old) with store := s.remove old w.store } :=
        filing_save hend hfiles
      refine ⟨outcome, w₁, .remove old :: calls, hrun, ?_, ?_, ?_⟩
      · rw [hcalls]
        exact List.append_assoc _ _ _
      · intro found ms hmem
        exact hfiled.saved found ms (by simpa using hmem)
      · intro cookie hcookie
        obtain ⟨hmem, heq⟩ := hfiled.done cookie hcookie
        exact ⟨List.mem_cons_of_mem _ hmem, heq⟩

/-- **One time for records, stores and cookies.** A session that is started and a changed one that
is committed end after the configured time, the store is told that time, and so is the cookie, with
the longest life of cookies as its limit. Only a time that cannot be added to a date gives a record
the end of a year. -/
theorem lifetimes_agree {settings : Settings} (hcheck : settings.check = .ok ()) (ids : Nat → Id)
    (hnow : w.clock < endOf2100) (hfits : Fits w.clock settings.session.cookieTtlSecs.toNat)
    (hfiles : ∀ record st, ∃ st₁,
      s.save w.clock record (settings.session.cookieTtlSecs.toNat * 1000) st = .ok st₁) :
    let ttl := settings.session.cookieTtlSecs.toNat
    let k := Keeper.ofSettings settings.session ids
    let t := endAfter w.clock (lifeSpan ttl)
    Storing.exec k.start w =
      (.ok (.ok (.fresh (ids w.drawn) t)), { w with drawn := w.drawn + 1 }) ∧
      (∀ h : Handle, h.destroyed = false → h.changed = true →
        Filing k h.record t (k.commit s h) w) ∧
      (∀ record, Shared.saving record (ttl * 1000) =
        .setFor (Shared.key record.id) record.text ttl) ∧
      ∀ id, k.sessionCookie id ≠ "" →
        LastsFor (k.sessionCookie id) (min ttl (Nat.pow 2 63 - 1)) := by
  intro ttl k t
  have hend : expiry w.clock k.ttl = .ok t := expiry_eq hnow hfits
  refine ⟨?_, ?_, ?_, fun id => maxAge_sessionCookie⟩
  · rw [exec_start, hend]
    rfl
  · intro h hdestroyed hchanged
    rw [Keeper.commit, Handle.takePlan_changed hdestroyed hchanged]
    exact filing_carryOut hend hfiles h.replaced
  · exact fun record => saving_seconds record (Settings.cookieTtlSecs_pos hcheck)

end Commits

/-! ## Times that are too long -/

/-- The default settings with another time to live. -/
def livingFor (ttl : UInt64) : Settings :=
  { Settings.default with session := { Settings.default.session with cookieTtlSecs := ttl } }

/-- Numbered identifiers. -/
def numbered (n : Nat) : Id := ⟨toString n⟩

/-- The shared server before anything was filed, at a time in the year 2023. -/
def unfiled : World Shared.Server := .start .empty 1700000000000

/-- There are cookies under the default name. -/
theorem sessionCookie_livingFor (ttl : UInt64) :
    (Keeper.ofSettings (livingFor ttl).session numbered).sessionCookie (numbered 0) ≠ "" := by
  refine sessionCookie_ne_empty (isHeaderValue_iff.1 ?_) (isHeaderValue_iff.1 ?_)
  · show Http.Response.isHeaderValue Settings.default.session.cookieName = true
    decide
  · decide

/-- The longest time that can be configured: the record is given a year, the server is told all of
it, and the cookie lives as long as cookies do. -/
theorem lifetimes_agree_longest :
    (livingFor 18446744073709551615).check = .ok () ∧ unfiled.clock < endOf2100 ∧
      Fits unfiled.clock 18446744073709551615 ∧
      let k := Keeper.ofSettings (livingFor 18446744073709551615).session numbered
      let h := (Handle.fresh (numbered 0) ⟨1731536000, 0⟩).setClaim "theme" (.str "dark")
      Storing.exec k.start unfiled =
          (.ok (.ok (.fresh (numbered 0) ⟨1731536000, 0⟩)), { unfiled with drawn := 1 }) ∧
        Filing k h.record ⟨1731536000, 0⟩ (k.commit Shared.store h) unfiled ∧
        Shared.saving h.record 18446744073709551615000 =
          .setFor "sess:0" h.record.text 18446744073709551615 ∧
        LastsFor (k.sessionCookie (numbered 0)) 9223372036854775807 := by
  have hcheck : (livingFor 18446744073709551615).check = .ok () := rfl
  have hnow : unfiled.clock < endOf2100 := by decide
  have hfits : Fits unfiled.clock 18446744073709551615 := .inl (by decide)
  obtain ⟨hstart, hcommit, hsaving, hcookie⟩ :=
    lifetimes_agree (s := Shared.store) hcheck numbered hnow hfits
    fun record st => ⟨_, rfl⟩
  exact ⟨hcheck, hnow, hfits, hstart, hcommit _ rfl rfl, hsaving _,
    hcookie _ (sessionCookie_livingFor _)⟩

/-- A time that is just too long for a date: the record ends after a year, and the cookie lives
on. -/
theorem year_for_record :
    (livingFor 9223372036854776).check = .ok () ∧
      let k := Keeper.ofSettings (livingFor 9223372036854776).session numbered
      (∃ w₁, Storing.exec k.start unfiled =
          (.ok (.ok (.fresh (numbered 0) (endAfter unfiled.clock 31536000))), w₁)) ∧
        endAfter unfiled.clock 31536000 ≠ endAfter unfiled.clock 9223372036854776 ∧
        LastsFor (k.sessionCookie (numbered 0)) 9223372036854776 := by
  have hend : expiry unfiled.clock 9223372036854776 = .ok (endAfter unfiled.clock 31536000) :=
    expiry_eq (by decide) (.inl (by decide))
  have httl : (Keeper.ofSettings (livingFor 9223372036854776).session numbered).ttl =
      9223372036854776 := rfl
  have hstart :=
    exec_start (Keeper.ofSettings (livingFor 9223372036854776).session numbered) unfiled
  rw [httl, hend] at hstart
  exact ⟨rfl, ⟨_, hstart⟩, by decide, maxAge_sessionCookie (sessionCookie_livingFor _)⟩

end Session

end Intranet
