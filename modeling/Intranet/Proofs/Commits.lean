import Intranet.Proofs.Traffic

/-!
# What a commit comes to

Committing a handle takes its plan and carries the plan out, call by call. Either all calls are
accepted and the plan is carried out, or a call is refused and what comes behind it is not made. In
between there is nothing: at the end the store has lost the identifiers of the removals that were
made, the first ones of the plan, and has the record if it was to be saved and everything went
well.

* `World.Accepts` — no outage refuses these calls;
* `Carried` and `Closed` — a plan that is carried out, and what can become of one;
* `closed` — carrying a plan out comes to one of the two;
* `load_without`, `Carried.load` — what the store finds afterwards.
-/

namespace Intranet

namespace Session

variable {σ : Type} {s : Store σ} {w w₁ : World σ} {calls more : List StoreCall}

/-! ## Calls that are accepted -/

/-- No outage refuses one of these calls when they are made next, in order. -/
def World.Accepts (w : World σ) (calls : List StoreCall) : Prop :=
  ∀ i call, calls[i]? = some call → w.outage (w.storeCalls.length + i) call = none

theorem accepts_nil (w : World σ) : w.Accepts [] := by
  intro i call h
  cases h

theorem accepts_singleton {call : StoreCall} (h : w.outage w.storeCalls.length call = none) :
    w.Accepts [call] := by
  intro i found hfound
  cases i with
  | zero => cases hfound; exact h
  | succ i => cases hfound

/-- Calls that are accepted one after the other. -/
theorem World.Accepts.append (h : w.Accepts calls) (hmore : w₁.Accepts more)
    (hcalls : w₁.storeCalls = w.storeCalls ++ calls) (hout : w₁.outage = w.outage) :
    w.Accepts (calls ++ more) := by
  intro i call hi
  by_cases hlt : i < calls.length
  · rw [List.getElem?_append_left hlt] at hi
    exact h i call hi
  · rw [List.getElem?_append_right (Nat.le_of_not_lt hlt)] at hi
    have hlater := hmore (i - calls.length) call hi
    have hplace : w₁.storeCalls.length + (i - calls.length) = w.storeCalls.length + i := by
      rw [hcalls, List.length_append]
      omega
    rwa [hout, hplace] at hlater

/-- What comes behind calls that are accepted with them. -/
theorem World.Accepts.behind (h : w.Accepts (calls ++ more))
    (hcalls : w₁.storeCalls = w.storeCalls ++ calls) (hout : w₁.outage = w.outage) :
    w₁.Accepts more := by
  intro i call hi
  have hplace : w₁.storeCalls.length + i = w.storeCalls.length + (calls.length + i) := by
    rw [hcalls, List.length_append]
    omega
  rw [hout, hplace]
  refine h (calls.length + i) call ?_
  rw [List.getElem?_append_right (Nat.le_add_right _ _), Nat.add_sub_cancel_left]
  exact hi

/-- Without an outage all calls are accepted. -/
theorem accepts_of_none (h : w.outage = .none) (calls : List StoreCall) : w.Accepts calls := by
  intro i call hi
  rw [h]
  rfl

/-! ## Times -/

/-- Sessions that start or are filed at a time have an end that can be written down. -/
structure Keeper.Dated (k : Keeper) (s : Store σ) (now : Nat) : Prop where
  ends : ∃ t, expiry now k.ttl = .ok t
  files : ∀ record st, ∃ st₁, s.save now record (k.ttl * 1000) st = .ok st₁

/-- On the store in memory it is enough that the end is a point of the clock. -/
theorem Keeper.Lasts.dated {k : Keeper} {now : Nat} (h : k.Lasts now) :
    k.Dated Memory.store now where
  ends := h.1
  files record m := by
    have hsave :
        Memory.store.save now record (k.ttl * 1000) m = m.save now record (k.ttl * 1000) := rfl
    rw [hsave, Memory.save, if_pos h.2]
    exact ⟨_, rfl⟩

/-! ## Carrying a plan out -/

/-- A store once identifiers are removed from it. -/
def Store.without (s : Store σ) (ids : List Id) (st : σ) : σ :=
  ids.foldl (fun st id => s.remove id st) st

/-- The identifiers that a plan removes, in order. -/
def Plan.removals : Plan → List Id
  | .nothing => []
  | .save _ replaced => replaced.toList
  | .remove ids => ids

/-- A plan that is carried out at a time on a store: the cookie to send, the calls that are made,
and the store after them. -/
inductive Carried (k : Keeper) (s : Store σ) (now : Nat) (st : σ) :
    Plan → Option String → List StoreCall → σ → Prop
  | nothing : Carried k s now st .nothing none [] st
  | remove {ids : List Id} :
      Carried k s now st (.remove ids) (some k.clearingCookie) (ids.map .remove) (s.without ids st)
  | save {record : Record} {old? : Option Id} {t : Instant} {st₁ : σ} :
      expiry now k.ttl = .ok t →
      s.save now (record.endingAt t) (k.ttl * 1000) (s.without old?.toList st) = .ok st₁ →
      Carried k s now st (.save record old?) (some (k.sessionCookie record.id))
        (old?.toList.map .remove ++ [.save (record.endingAt t) (k.ttl * 1000)]) st₁

/-- Off the store nothing differs. -/
structure World.SameOffStore (w w₁ : World σ) : Prop where
  clock : w₁.clock = w.clock
  drawn : w₁.drawn = w.drawn
  outage : w₁.outage = w.outage
  ledger : w₁.ledger = w.ledger

theorem World.SameOffStore.refl (w : World σ) : w.SameOffStore w := ⟨rfl, rfl, rfl, rfl⟩

theorem World.SameOffStore.trans {w₂ : World σ} (h₁ : w.SameOffStore w₁)
    (h₂ : w₁.SameOffStore w₂) : w.SameOffStore w₂ where
  clock := h₂.clock.trans h₁.clock
  drawn := h₂.drawn.trans h₁.drawn
  outage := h₂.outage.trans h₁.outage
  ledger := h₂.ledger.trans h₁.ledger

/-- A call of a plan is refused behind some of its removals, or the plan is carried out. -/
inductive Closed (k : Keeper) (s : Store σ) (w : World σ) (plan : Plan) :
    Except Crash (Except StoreError (Option String)) × World σ → Prop
  | refused {e : StoreError} {calls : List StoreCall} {gone : List Id} {w₁ : World σ}
      (storeCalls : w₁.storeCalls = w.storeCalls ++ calls) (loads : ∀ id, .load id ∉ calls)
      (rest : w.SameOffStore w₁) (refuses : ¬w.Accepts calls) (removed : gone <+: plan.removals)
      (store : w₁.store = s.without gone w.store) : Closed k s w plan (.ok (.error e), w₁)
  | done {cookie : Option String} {calls : List StoreCall} {w₁ : World σ}
      (storeCalls : w₁.storeCalls = w.storeCalls ++ calls) (loads : ∀ id, .load id ∉ calls)
      (rest : w.SameOffStore w₁) (accepts : w.Accepts calls)
      (carried : Carried k s w.clock w.store plan cookie calls w₁.store) :
      Closed k s w plan (.ok (.ok cookie), w₁)

/-- Removing an identifier, and what follows it. -/
theorem closed_remove {k : Keeper} {plan left : Plan} {id : Id}
    (hplan : k.carryOut s plan = (do Storing.remove s id; k.carryOut s left))
    (hremovals : plan.removals = id :: left.removals)
    (hw₁ : w₁ = { w.announced (.remove id) with store := s.remove id w.store })
    (hcarried : ∀ {cookie calls st}, Carried k s w₁.clock w₁.store left cookie calls st →
      Carried k s w.clock w.store plan cookie (.remove id :: calls) st)
    (hleft : Closed k s w₁ left (Storing.exec (k.carryOut s left) w₁)) :
    Closed k s w plan (Storing.exec (k.carryOut s plan) w) := by
  have hloads {calls : List StoreCall} (h : ∀ x, StoreCall.load x ∉ calls) (x : Id) :
      StoreCall.load x ∉ .remove id :: calls := by
    intro hmem
    rcases List.mem_cons.1 hmem with hcall | hmem
    · cases hcall
    · exact h x hmem
  rw [hplan, Storing.exec_bind, Storing.exec_remove]
  cases ho : w.outage w.storeCalls.length (.remove id) with
  | some e =>
    have hrefuses : ¬w.Accepts [.remove id] := by
      intro haccepts
      have hnone := haccepts 0 (.remove id) rfl
      rw [Nat.add_zero, ho] at hnone
      cases hnone
    exact .refused rfl (hloads fun _ => List.not_mem_nil) ⟨rfl, rfl, rfl, rfl⟩ hrefuses
      List.nil_prefix rfl
  | none =>
    have hfirst : w.Accepts [.remove id] := accepts_singleton ho
    have hcalls : w₁.storeCalls = w.storeCalls ++ [.remove id] := by rw [hw₁]; rfl
    have hfar : w.SameOffStore w₁ := by rw [hw₁]; exact ⟨rfl, rfl, rfl, rfl⟩
    have hall {calls : List StoreCall} {w₂ : World σ}
        (h : w₂.storeCalls = w₁.storeCalls ++ calls) :
        w₂.storeCalls = w.storeCalls ++ .remove id :: calls := by
      rw [h, hcalls, List.append_assoc, List.singleton_append]
    dsimp only
    rw [← hw₁]
    generalize Storing.exec (k.carryOut s left) w₁ = outcome at hleft ⊢
    cases hleft with
    | @refused e calls gone w₂ storeCalls loads rest refuses removed store =>
      have hremoved : id :: gone <+: plan.removals := by
        rw [hremovals]
        exact (List.prefix_cons_inj id).2 removed
      have hstore : w₂.store = s.without (id :: gone) w.store := by
        rw [store, hw₁]
        rfl
      exact .refused (hall storeCalls) (hloads loads) (hfar.trans rest)
        (fun haccepts => refuses (haccepts.behind hcalls hfar.outage)) hremoved hstore
    | done storeCalls loads rest accepts carried =>
      exact .done (hall storeCalls) (hloads loads) (hfar.trans rest)
        (hfirst.append accepts hcalls hfar.outage) (hcarried carried)

theorem closed_save {k : Keeper} (hdated : k.Dated s w.clock) (record : Record) :
    Closed k s w (.save record none) (Storing.exec (k.carryOut s (.save record none)) w) := by
  obtain ⟨t, ht⟩ := hdated.ends
  obtain ⟨st₁, hst₁⟩ := hdated.files (record.endingAt t) w.store
  have hloads (x : Id) : StoreCall.load x ∉ [.save (record.endingAt t) (k.ttl * 1000)] := by simp
  rw [carryOut_eq, Storing.exec_bind, exec_carryOn_save, ht]
  dsimp only
  cases ho : w.outage w.storeCalls.length (.save (record.endingAt t) (k.ttl * 1000)) with
  | some e =>
    refine .refused rfl hloads ⟨rfl, rfl, rfl, rfl⟩ (fun haccepts => ?_) List.nil_prefix rfl
    have hnone := haccepts 0 _ rfl
    rw [Nat.add_zero, ho] at hnone
    cases hnone
  | none =>
    rw [hst₁]
    exact .done rfl hloads ⟨rfl, rfl, rfl, rfl⟩ (accepts_singleton ho) (.save ht hst₁)

theorem closed_removes (k : Keeper) (ids : List Id) (w : World σ) :
    Closed k s w (.remove ids) (Storing.exec (k.carryOut s (.remove ids)) w) := by
  induction ids generalizing w with
  | nil =>
    exact .done (List.append_nil _).symm (fun _ => List.not_mem_nil) (.refl w)
      (accepts_nil w) .remove
  | cons id rest ih =>
    have hplan : k.carryOut s (.remove (id :: rest)) =
        (do Storing.remove s id; k.carryOut s (.remove rest)) := by
      simp [Keeper.carryOut]
    refine closed_remove hplan rfl rfl ?_ (ih _)
    intro cookie calls st hcarried
    cases hcarried
    exact .remove

/-- Carrying a plan out comes to an end. -/
theorem closed {k : Keeper} (hdated : k.Dated s w.clock) (plan : Plan) :
    Closed k s w plan (Storing.exec (k.carryOut s plan) w) := by
  cases plan with
  | nothing =>
    exact .done (List.append_nil _).symm (fun _ => List.not_mem_nil) (.refl w)
      (accepts_nil w) .nothing
  | remove ids => exact closed_removes k ids w
  | save record old? =>
    cases old? with
    | none => exact closed_save hdated record
    | some old =>
      have hplan : k.carryOut s (.save record (some old)) =
          (do Storing.remove s old; k.carryOut s (.save record none)) := rfl
      have hrest :=
        closed_save (w := { w.announced (.remove old) with store := s.remove old w.store })
          hdated record
      refine closed_remove hplan rfl rfl ?_ hrest
      intro cookie calls st hcarried
      cases hcarried with
      | @save _ _ t _ ht hsave =>
        have hsave : s.save w.clock (record.endingAt t) (k.ttl * 1000)
            (s.without (some old).toList w.store) = .ok st := hsave
        exact .save ht hsave

/-! ## Commits -/

/-- Does in the store what a handle asks for. Gives the cookie header to send, if any. -/
def Keeper.commit (k : Keeper) (s : Store σ) (h : Handle) : Storing σ (Option String) :=
  k.carryOut s h.takePlan.1

/-- A handle from the moment on that a commit has taken its plan, whatever becomes of the plan. -/
def Handle.committed (h : Handle) : Handle := h.takePlan.2

namespace Handle

variable {h : Handle}

/-- The identifiers under which a handle may be filed. -/
def filings (h : Handle) : List Id :=
  (if h.persisted then [h.record.id] else []) ++ h.replaced.toList

theorem takePlan_destroyed (hdestroyed : h.destroyed = true) :
    h.takePlan =
      (.remove h.filings, { h with persisted := false, changed := false, replaced := none }) := by
  rw [takePlan, if_pos hdestroyed]
  rfl

theorem takePlan_changed (hdestroyed : h.destroyed = false) (hchanged : h.changed = true) :
    h.takePlan = (.save h.record h.replaced,
      { h with changed := false, persisted := true, replaced := none }) := by
  rw [takePlan, if_neg (by rw [hdestroyed]; nofun), if_pos hchanged]

theorem takePlan_unchanged (hdestroyed : h.destroyed = false) (hchanged : h.changed = false) :
    h.takePlan = (.nothing, h) := by
  rw [takePlan, if_neg (by rw [hdestroyed]; nofun), if_neg (by rw [hchanged]; nofun)]

/-- A commit changes no more than marks, and leaves none that calls for another save. -/
theorem committed_spec (h : Handle) :
    h.committed.record = h.record ∧ h.committed.destroyed = h.destroyed ∧
      h.committed.changed = false := by
  cases hdestroyed : h.destroyed with
  | true =>
    rw [committed, takePlan_destroyed hdestroyed]
    exact ⟨rfl, hdestroyed, rfl⟩
  | false =>
    cases hchanged : h.changed with
    | true =>
      rw [committed, takePlan_changed hdestroyed hchanged]
      exact ⟨rfl, hdestroyed, rfl⟩
    | false =>
      rw [committed, takePlan_unchanged hdestroyed hchanged]
      exact ⟨rfl, hdestroyed, hchanged⟩

end Handle

/-- A commit of a handle that is as it was filed does nothing. -/
theorem exec_commit_unchanged {k : Keeper} {h : Handle} (hdestroyed : h.destroyed = false)
    (hchanged : h.changed = false) (w : World σ) :
    Storing.exec (k.commit s h) w = (.ok (.ok none), w) := by
  rw [Keeper.commit, Handle.takePlan_unchanged hdestroyed hchanged]
  rfl

/-- Without an outage a commit is done. -/
theorem exec_commit {k : Keeper} (hdated : k.Dated s w.clock) (hout : w.outage = .none)
    (h : Handle) :
    ∃ cookie calls w₁, Storing.exec (k.commit s h) w = (.ok (.ok cookie), w₁) ∧
      Carried k s w.clock w.store h.takePlan.1 cookie calls w₁.store ∧ w.SameOffStore w₁ := by
  have hclosed := closed hdated h.takePlan.1
  unfold Keeper.commit
  generalize Storing.exec (k.carryOut s h.takePlan.1) w = outcome at hclosed ⊢
  cases hclosed with
  | @refused e calls gone w₁ storeCalls loads rest refuses =>
    exact absurd (accepts_of_none hout calls) refuses
  | @done cookie calls w₁ storeCalls loads rest accepts carried =>
    exact ⟨cookie, calls, w₁, rfl, carried, rest⟩

/-! ## What is found afterwards -/

section Faithful

variable {fits : Record → Prop} {now : Nat} {id : Id}

/-- What was removed is absent, and the rest is as before. -/
theorem load_without (hs : s.Faithful fits) (ids : List Id) (st : σ) :
    (s.load now id (s.without ids st)).1 =
      if id ∈ ids then .ok none else (s.load now id st).1 := by
  induction ids generalizing st with
  | nil => rfl
  | cons first rest ih =>
    show (s.load now id (s.without rest (s.remove first st))).1 = _
    rw [ih]
    by_cases hrest : id ∈ rest
    · rw [if_pos hrest, if_pos (List.mem_cons_of_mem first hrest)]
    rw [if_neg hrest]
    by_cases hfirst : id = first
    · rw [hfirst, hs.removed, if_pos List.mem_cons_self]
    · rw [hs.remove_other hfirst, if_neg (by simp [hfirst, hrest])]

/-- Once a plan is carried out, what it removes is absent, and what it neither removes nor saves is
as before. -/
theorem Carried.load (hs : s.Faithful fits) {k : Keeper} {st st₁ : σ} {plan : Plan}
    {cookie : Option String} (h : Carried k s now st plan cookie calls st₁) {later : Nat}
    (hid : ∀ record old?, plan = .save record old? → id ≠ record.id) :
    (s.load later id st₁).1 = if id ∈ plan.removals then .ok none else (s.load later id st).1 := by
  cases h with
  | nothing => rfl
  | remove => exact load_without hs _ st
  | @save record old? t st₁ ht hsave =>
    have hne : id ≠ (record.endingAt t).id := hid record old? rfl
    rw [hs.save_other hsave hne]
    exact load_without hs old?.toList st

end Faithful

end Session

end Intranet
