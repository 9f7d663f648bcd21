import Intranet.Proofs.Commits

/-!
# Commits that fail

A commit takes the plan of the handle first and calls the store after that. When a call is refused
the marks of the handle are cleared all the same, and the removals before that call have been made.
A second commit has nothing to do, however the store is by then.

* `exec_commit_again` — a second commit makes no call;
* `Store.SameSessions` — stores with the same sessions, up to their ends;
* `Keeper.LosesNothing` — a failed commit changed nothing, and a second one makes up for it;
* `failed_commit_iff` — that is so only when there was nothing to do;
* `destroyed_survives` — a session that was destroyed outlives both commits.
-/

namespace Intranet

namespace Session

variable {σ : Type} {k : Keeper} {s : Store σ} {fits : Record → Prop} {w w₁ : World σ} {h : Handle}

/-- A handle whose plan was taken has nothing more to do, whatever became of the plan. -/
theorem exec_commit_again (k : Keeper) (s : Store σ) (h : Handle) (w : World σ) :
    ∃ cookie, Storing.exec (k.commit s h.committed) w = (.ok (.ok cookie), w) := by
  obtain ⟨-, hdestroyed, hchanged⟩ := h.committed_spec
  cases hd : h.destroyed with
  | true =>
    have hfilings : h.committed.filings = [] := by
      rw [Handle.committed, Handle.takePlan_destroyed hd]
      rfl
    refine ⟨some k.clearingCookie, ?_⟩
    rw [Keeper.commit, Handle.takePlan_destroyed (hdestroyed.trans hd), hfilings]
    rfl
  | false => exact ⟨none, exec_commit_unchanged (hdestroyed.trans hd) hchanged w⟩

/-- A record whatever its end. -/
def Record.timeless (r : Record) : Record := r.endingAt default

/-- What is found under an identifier, up to its end. -/
def Store.find (s : Store σ) (now : Nat) (id : Id) (st : σ) : Except StoreError (Option Record) :=
  (s.load now id st).1.map (Option.map Record.timeless)

/-- Two stores have the same sessions at a time, up to their ends. -/
def Store.SameSessions (s : Store σ) (now : Nat) (st st₁ : σ) : Prop :=
  ∀ id, s.find now id st = s.find now id st₁

theorem find_eq_none {now : Nat} {id : Id} {st : σ} :
    s.find now id st = .ok none ↔ (s.load now id st).1 = .ok none := by
  unfold Store.find
  cases (s.load now id st).1 with
  | error e => exact ⟨nofun, nofun⟩
  | ok found =>
    cases found with
    | none => exact ⟨fun _ => rfl, fun _ => rfl⟩
    | some record => exact ⟨nofun, nofun⟩

/-- A failed commit left all records where they were, and a second one, once no call is refused,
leaves the sessions that the first one would have left. A session that would have been saved is
compared for as long as it would have lived. -/
structure Keeper.LosesNothing (k : Keeper) (s : Store σ) (h : Handle) (w w₁ : World σ) (full : σ) :
    Prop where
  kept : ∀ now, w.clock ≤ now → ∀ id, (s.load now id w₁.store).1 = (s.load now id w.store).1
  mended : ∀ w₂ : World σ, w₂.store = w₁.store → w₂.outage = .none → w.clock ≤ w₂.clock →
    ∃ cookie w₃, Storing.exec (k.commit s h.committed) w₂ = (.ok (.ok cookie), w₃) ∧
      ∀ now, w₂.clock ≤ now → now < w.clock + k.ttl * 1000 → s.SameSessions now w₃.store full

/-- The second commit leaves what it finds, so the first one would have left it too. -/
theorem Keeper.LosesNothing.sameSessions {full : σ}
    (hnothing : k.LosesNothing s h w w₁ full) {now : Nat} (hnow : w.clock ≤ now)
    (hlive : now < w.clock + k.ttl * 1000) : s.SameSessions now w.store full := by
  intro id
  let w₂ : World σ := { w₁ with outage := .none, clock := w.clock }
  obtain ⟨again, w₃, hretry, hsame⟩ := hnothing.mended w₂ rfl rfl (Nat.le_refl _)
  obtain ⟨idle, hidle⟩ := exec_commit_again k s h w₂
  rw [hidle] at hretry
  cases hretry
  rw [← hsame now hnow hlive id, Store.find, Store.find, hnothing.kept now hnow id]

/-- What a plan removes is absent once the plan is carried out, also when the plan saves: it never
saves what it removes. -/
theorem Carried.absent (hs : s.Faithful fits) (hproper : h.replaced ≠ some h.record.id) {now : Nat}
    {st st₁ : σ} {cookie : Option String} {calls : List StoreCall}
    (hcarried : Carried k s now st h.takePlan.1 cookie calls st₁) {id : Id}
    (hid : id ∈ h.takePlan.1.removals) (later : Nat) : (s.load later id st₁).1 = .ok none := by
  rw [hcarried.load hs, if_pos hid]
  rintro record old? hplan rfl
  cases hd : h.destroyed with
  | true =>
    rw [Handle.takePlan_destroyed hd] at hplan
    cases hplan
  | false =>
    cases hc : h.changed with
    | true =>
      rw [Handle.takePlan_changed hd hc] at hplan hid
      cases hplan
      exact hproper (Option.mem_toList.1 hid)
    | false =>
      rw [Handle.takePlan_unchanged hd hc] at hplan
      cases hplan

/-- **What a failed commit loses.** When a call of a commit is refused, the removals before it have
been made, and a second commit makes no call at all. So nothing is lost if and only if the commit
would have left the sessions as they were, up to their ends. -/
theorem failed_commit_iff (hs : s.Faithful fits) (httl : 0 < k.ttl) (hdated : k.Dated s w.clock)
    (hproper : h.replaced ≠ some h.record.id) {e : StoreError}
    (hfail : Storing.exec (k.commit s h) w = (.ok (.error e), w₁)) :
    (∃ gone, gone <+: h.takePlan.1.removals ∧ w₁.store = s.without gone w.store) ∧
    (∀ w₂ : World σ, ∃ cookie, Storing.exec (k.commit s h.committed) w₂ = (.ok (.ok cookie), w₂)) ∧
    ∃ cookie full, Storing.exec (k.commit s h) { w with outage := .none } =
      (.ok (.ok cookie), full) ∧
      (k.LosesNothing s h w w₁ full.store ↔
        ∀ now, w.clock ≤ now → now < w.clock + k.ttl * 1000 →
          s.SameSessions now w.store full.store) := by
  have hclosed : Closed k s w h.takePlan.1 (Storing.exec (k.commit s h) w) :=
    closed hdated h.takePlan.1
  rw [hfail] at hclosed
  cases hclosed with
  | @refused _ calls gone _ storeCalls loads rest refuses removed store =>
  obtain ⟨cookie, calls, full, hexec, hcarried, -⟩ :=
    exec_commit (w := { w with outage := .none }) hdated rfl h
  have hcarried : Carried k s w.clock w.store h.takePlan.1 cookie calls full.store := hcarried
  refine ⟨⟨gone, removed, store⟩, exec_commit_again k s h, cookie, full, hexec, ?_, ?_⟩
  · exact fun hnothing now hnow hlive => hnothing.sameSessions hnow hlive
  · intro hsame
    have hkept (now : Nat) (hnow : w.clock ≤ now) (id : Id) :
        (s.load now id w₁.store).1 = (s.load now id w.store).1 := by
      rw [store, load_without hs]
      split
      · next hgone =>
        have hfull := hcarried.absent hs hproper (removed.subset hgone) w.clock
        have hbefore := hsame w.clock (Nat.le_refl _) (by omega) id
        rw [find_eq_none.2 hfull] at hbefore
        exact (hs.absent hnow (find_eq_none.1 hbefore)).symm
      · rfl
    refine ⟨hkept, fun w₂ hstore _ hlater => ?_⟩
    obtain ⟨again, hretry⟩ := exec_commit_again k s h w₂
    refine ⟨again, w₂, hretry, fun now hnow hlive id => ?_⟩
    have hnow := Nat.le_trans hlater hnow
    rw [← hsame now hnow hlive id, Store.find, Store.find, hstore, hkept now hnow id]

/-- An outage in which nothing can be removed. -/
def removesRefused : Outage := fun _ call =>
  match call with
  | .remove _ => some (.backend "connection lost")
  | _ => none

/-- The record of a session that ends after an hour. -/
def hourRecord : Record := ⟨Rehearsal.ids 0, none, none, [], .ofMillis 3600000⟩

/-- A session whose record is gone from the store by the time it is destroyed: the commit fails,
and yet nothing is lost. -/
theorem failed_commit_gone :
    let k := Rehearsal.portal.keeper
    let h := (Handle.ofRecord hourRecord).destroy
    let w : World Memory := { World.start Memory.empty 0 with outage := removesRefused }
    0 < k.ttl ∧ k.Dated Memory.store w.clock ∧ h.replaced ≠ some h.record.id ∧
      Storing.exec (k.commit Memory.store h) w =
        (.ok (.error (.backend "connection lost")), w.announced (.remove hourRecord.id)) ∧
      ∃ full, k.LosesNothing Memory.store h w (w.announced (.remove hourRecord.id)) full := by
  intro k h w
  have httl : 0 < k.ttl := by decide
  have hdated : Rehearsal.portal.keeper.Dated Memory.store 0 :=
    Keeper.Lasts.dated ⟨⟨_, rfl⟩, by decide⟩
  have hfail : Storing.exec (k.commit Memory.store h) w =
      (.ok (.error (.backend "connection lost")), w.announced (.remove hourRecord.id)) := rfl
  have hproper : h.replaced ≠ some h.record.id := nofun
  obtain ⟨-, -, cookie, full, hexec, hiff⟩ :=
    failed_commit_iff Memory.faithful httl hdated hproper hfail
  refine ⟨httl, hdated, hproper, hfail, full.store, hiff.2 fun now _ _ id => ?_⟩
  have hfull : full.store = w.store := by
    have hempty : (Storing.exec (k.commit Memory.store h) { w with outage := .none }).2.store =
        w.store := rfl
    rwa [hexec] at hempty
  rw [hfull]

/-- A session in the store that is destroyed while nothing can be removed: the commit fails, the
session is still there after another commit when everything works again, and the first commit would
have removed it. -/
theorem destroyed_survives :
    let k := Rehearsal.portal.keeper
    let h := (Handle.ofRecord hourRecord).destroy
    let w : World Memory :=
      { World.start ⟨[(hourRecord.id, ⟨hourRecord, 3600000⟩)]⟩ 0 with outage := removesRefused }
    let failed := Storing.exec (k.commit Memory.store h) w
    let again := Storing.exec (k.commit Memory.store h.committed) { failed.2 with outage := .none }
    let full := Storing.exec (k.commit Memory.store h) { w with outage := .none }
    failed.1 = .ok (.error (.backend "connection lost")) ∧
      again.1 = .ok (.ok (some k.clearingCookie)) ∧
      (Memory.store.load 0 hourRecord.id again.2.store).1 = .ok (some hourRecord) ∧
      full.1 = .ok (.ok (some k.clearingCookie)) ∧
      (Memory.store.load 0 hourRecord.id full.2.store).1 = .ok none :=
  ⟨rfl, rfl, rfl, rfl, rfl⟩

end Session

end Intranet
