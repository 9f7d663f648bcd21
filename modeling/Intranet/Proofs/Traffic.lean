import Intranet.Portal.Traffic
import Intranet.Proofs.Stores
import Intranet.Rehearsal
import Mathlib.Data.List.Nodup

/-!
# Sessions that are gone stay gone

Requests are served at the same time, their steps mixed in any order, with pauses in between and
with an outage that refuses any calls to the store. A request works with what it found in the store
some time ago, and yet none of them brings a session back that another one has ended. What counts
is how often an identifier is saved: a request saves under an identifier that it has drawn itself,
and once.

* `serve_alone` — a request that nobody comes in between is served as `serve` does it;
* `Store.Timed.Made` — a stretch of work makes these calls to the store, and only what it saves
  gets a new end;
* `spends_fly` — a step of a request saves, and plans to save, no more than was planned before or
  is drawn in it;
* `Owes` — the invariant of traffic: saved and still to be saved is no more than was drawn;
* `no_return` — over every run: nothing is saved twice, no end is moved, and what is gone stays
  gone.
-/

namespace Intranet

open Intranet.Http (Request Response)

/-! ## A request by itself -/

namespace Session

variable {σ : Type}

/-- Carrying a plan out is carrying it on until it is done. -/
theorem carryOut_eq (k : Keeper) (s : Store σ) (plan : Plan) :
    k.carryOut s plan = (do
      match ← k.carryOn s plan with
      | .left rest => k.carryOut s rest
      | .done cookie => pure cookie) := by
  cases plan with
  | nothing => rfl
  | save record replaced => cases replaced <;> simp [Keeper.carryOn, Keeper.carryOut]
  | remove ids => cases ids <;> simp [Keeper.carryOn, Keeper.carryOut]

/-- What may be left of a plan once its next call to the store was taken. -/
inductive Plan.Leaves : Plan → Plan → Prop
  | save {record : Record} {old : Id} : Leaves (.save record (some old)) (.save record none)
  | remove {id : Id} {rest : List Id} : Leaves (.remove (id :: rest)) (.remove rest)

/-- How many calls to the store a plan asks for. -/
def Plan.length : Plan → Nat
  | .nothing => 0
  | .save _ replaced => replaced.toList.length + 1
  | .remove ids => ids.length

theorem Plan.Leaves.length_lt {plan left : Plan} (h : plan.Leaves left) :
    left.length < plan.length := by
  cases h <;> simp [Plan.length]

/-- Removing an identifier on the way leaves the rest of a plan, unless the call is refused. -/
theorem exec_remove_left (s : Store σ) (id : Id) (left : Plan) (w : World σ) :
    Storing.exec (do Storing.remove s id; pure (Progress.left left)) w =
      match w.outage w.storeCalls.length (.remove id) with
      | some e => (.ok (.error e), w.announced (.remove id))
      | none =>
        (.ok (.ok (.left left)),
          { w.announced (.remove id) with store := s.remove id w.store }) := by
  rw [Storing.exec_bind, Storing.exec_remove]
  cases w.outage w.storeCalls.length (.remove id) <;> rfl

/-- A record as it is filed: with a new end. -/
def Record.endingAt (record : Record) (t : Instant) : Record := { record with expiresAt := t }

/-- Filing a record is the last call of its plan. -/
theorem exec_carryOn_save (k : Keeper) (s : Store σ) (record : Record) (w : World σ) :
    Storing.exec (k.carryOn s (.save record none)) w =
      match expiry w.clock k.ttl with
      | .error c => (.error c, w)
      | .ok t =>
        let call := StoreCall.save (record.endingAt t) (k.ttl * 1000)
        match w.outage w.storeCalls.length call with
        | some e => (.ok (.error e), w.announced call)
        | none =>
          match s.save w.clock (record.endingAt t) (k.ttl * 1000) w.store with
          | .error c => (.error c, w.announced call)
          | .ok store =>
            (.ok (.ok (.done (some (k.sessionCookie record.id)))),
              { w.announced call with store := store }) := by
  simp only [Keeper.carryOn, Storing.exec_bind, Storing.exec_get]
  cases expiry w.clock k.ttl with
  | error c => rfl
  | ok t =>
    have hfiled : ({ record with expiresAt := t } : Record) = record.endingAt t := rfl
    simp only [Storing.exec_orCrash_ok, hfiled, Storing.exec_save]
    cases w.outage w.storeCalls.length (.save (record.endingAt t) (k.ttl * 1000)) with
    | some e => rfl
    | none => cases s.save w.clock (record.endingAt t) (k.ttl * 1000) w.store <;> rfl

theorem leaves_of_carryOn {k : Keeper} {s : Store σ} {plan left : Plan} {w w₁ : World σ}
    (h : Storing.exec (k.carryOn s plan) w = (.ok (.ok (.left left)), w₁)) : plan.Leaves left := by
  have hremove {id : Id} {rest : Plan}
      (hr : Storing.exec (do Storing.remove s id; pure (Progress.left rest)) w =
        (.ok (.ok (.left left)), w₁)) : left = rest := by
    rw [exec_remove_left] at hr
    cases ho : w.outage w.storeCalls.length (.remove id) with
    | some e => rw [ho] at hr; cases hr
    | none => rw [ho] at hr; cases hr; rfl
  cases plan with
  | nothing => cases h
  | save record replaced =>
    cases replaced with
    | some old => rw [hremove h]; exact .save
    | none =>
      rw [exec_carryOn_save] at h
      split at h
      · cases h
      · dsimp only at h
        split at h
        · cases h
        · split at h <;> cases h
  | remove ids =>
    cases ids with
    | nil => cases h
    | cons id rest => rw [hremove h]; exact .remove

end Session

/-- The stage of a request whose work has ended. -/
def Stage.ofResult : Except Session.Crash Response → Stage
  | .ok response => .answered response
  | .error c => .broken c

namespace Portal

open Session (Store World Storing Serving Handle Plan Progress Crash Id StoreCall Keeper)

variable {σ : Type} {p : Portal} {s : Store σ} {r : Request} {w : World σ}

/-- Carries a plan out and lets a response go. -/
def close (p : Portal) (s : Store σ) (r : Request) (response : Response) (plan : Plan) :
    Serving σ Response := do
  match ← (p.keeper.carryOut s plan).run with
  | .error e =>
    p.release r (← storeFailed r ("Failed to persist session: " ++ e.message) e.failure)
  | .ok none => p.release r response
  | .ok (some cookie) => p.release r (response.withHeader "set-cookie" cookie)

/-- The work on a request from a stage on, up to its response. -/
def rest (p : Portal) (s : Store σ) (r : Request) : Stage → Serving σ Response
  | .arrived => p.serve s r
  | .opened session => do
    let (response, session, w) := p.handleWith r session (← get)
    set w
    p.close s r response session.takePlan.1
  | .closing response plan => p.close s r response plan
  | .answered response => pure response
  | .broken crash => throw crash

/-- A step does a piece of the work that is left. -/
theorem rest_eq (p : Portal) (s : Store σ) (r : Request) (stage : Stage) :
    p.rest s r stage = p.proceed s r stage >>= p.rest s r := by
  cases stage with
  | arrived =>
    simp only [rest, serve, withSession, proceed, bind_assoc]
    congr 1
    funext found
    cases found with
    | error e => simp [rest, release]
    | ok session =>
      simp only [rest, close, release, pure_bind, bind_assoc]
      congr 1
      funext v
      congr 1
      funext _
      congr 1
      funext done
      cases done with
      | error e => simp
      | ok cookie => cases cookie <;> simp
  | opened session => simp [rest, proceed]
  | closing response plan =>
    simp only [rest, close, proceed]
    rw [Session.carryOut_eq]
    simp only [ExceptT.run_bind, bind_assoc]
    congr 1
    funext done
    cases done with
    | error e => simp [rest]
    | ok progress =>
      cases progress with
      | left plan => simp [rest, close]
      | done cookie => cases cookie <;> simp [rest]
  | answered response => simp [rest, proceed]
  | broken crash => simp [rest, proceed]

theorem fly_eq (p : Portal) (s : Store σ) (f : Flight) (w : World σ) :
    p.fly s f w =
      match (p.proceed s f.request f.stage).exec w with
      | (.ok stage, w) => (⟨f.request, stage⟩, w)
      | (.error c, w) => (⟨f.request, .broken c⟩, w) := rfl

/-- What is left to do after a step leads where the work led before it. -/
theorem exec_rest_fly (p : Portal) (s : Store σ) (f : Flight) (w : World σ) :
    (p.rest s f.request (p.fly s f w).1.stage).exec (p.fly s f w).2 =
      (p.rest s f.request f.stage).exec w := by
  rw [rest_eq p s f.request f.stage, Serving.exec_bind, fly_eq]
  cases (p.proceed s f.request f.stage).exec w with
  | mk x w₁ => cases x <;> rfl

/-- Steps of a request that is alone bring it to the response to which its work leads. -/
def Lands (p : Portal) (s : Store σ) (f : Flight) (w : World σ) : Prop :=
  ∃ n, p.conduct s ⟨w, [f]⟩ (List.replicate n (.advance 0)) =
    ⟨((p.rest s f.request f.stage).exec w).2,
      [⟨f.request, .ofResult ((p.rest s f.request f.stage).exec w).1⟩]⟩

theorem lands_ofResult (r : Request) (result : Except Crash Response) (w : World σ) :
    p.Lands s ⟨r, .ofResult result⟩ w := by
  cases result <;> exact ⟨0, rfl⟩

theorem fly_request (p : Portal) (s : Store σ) (f : Flight) (w : World σ) :
    (p.fly s f w).1.request = f.request := by
  rw [fly_eq]
  cases (p.proceed s f.request f.stage).exec w with
  | mk x w₁ => cases x <;> rfl

theorem lands_of_fly {f : Flight} (h : p.Lands s (p.fly s f w).1 (p.fly s f w).2) :
    p.Lands s f w := by
  obtain ⟨n, hn⟩ := h
  rw [fly_request, exec_rest_fly] at hn
  exact ⟨n + 1, hn⟩

/-- A step at the plan of a session leaves a part of the plan, or it is the last step. -/
theorem fly_closing (r : Request) (response : Response) {plan : Plan}
    {x : Except Crash (Except Session.StoreError Progress)} {w₁ : World σ}
    (hc : Storing.exec (p.keeper.carryOn s plan) w = (x, w₁)) :
    (∃ left, x = .ok (.ok (.left left)) ∧
        p.fly s ⟨r, .closing response plan⟩ w = (⟨r, .closing response left⟩, w₁)) ∨
      ∃ result ledger, p.fly s ⟨r, .closing response plan⟩ w =
        (⟨r, .ofResult result⟩, { w₁ with ledger := ledger }) := by
  rw [fly_eq]
  simp only [proceed, Serving.exec_bind, Serving.exec_run, hc]
  cases x with
  | error c => exact .inr ⟨.error c, _, rfl⟩
  | ok y =>
    cases y with
    | error e => exact .inr ⟨.ok _, _, rfl⟩
    | ok progress =>
      cases progress with
      | left left => exact .inl ⟨left, rfl, rfl⟩
      | done cookie => cases cookie <;> exact .inr ⟨.ok _, _, rfl⟩

theorem lands_closing (p : Portal) (s : Store σ) (r : Request) (response : Response) (plan : Plan)
    (w : World σ) : p.Lands s ⟨r, .closing response plan⟩ w := by
  induction hn : plan.length using Nat.strongRecOn generalizing plan w with
  | _ n ih =>
    apply lands_of_fly
    cases hc : Storing.exec (p.keeper.carryOn s plan) w with
    | mk x w₁ =>
      obtain ⟨left, rfl, hfly⟩ | ⟨result, ledger, hfly⟩ :=
        fly_closing r response hc
      · rw [hfly]
        have hlt := (Session.leaves_of_carryOn hc).length_lt
        exact ih left.length (hn ▸ hlt) left w₁ rfl
      · rw [hfly]
        exact lands_ofResult r result _

theorem lands_opened (p : Portal) (s : Store σ) (r : Request) (h : Handle) (w : World σ) :
    p.Lands s ⟨r, .opened h⟩ w :=
  lands_of_fly (lands_closing p s r _ _ _)

/-- **A request by itself.** When no other request comes in between, the steps of a request lead
where serving it in one go does. -/
theorem serve_alone (p : Portal) (s : Store σ) (r : Request) (w : World σ) :
    ∃ n, p.conduct s ⟨w, []⟩ (.arrive r :: List.replicate n (.advance 0)) =
      ⟨((p.serve s r).exec w).2, [⟨r, .ofResult ((p.serve s r).exec w).1⟩]⟩ := by
  have hlands : p.Lands s ⟨r, .arrived⟩ w := by
    apply lands_of_fly
    rw [fly_eq]
    simp only [proceed, Serving.exec_bind, Serving.exec_run]
    cases Storing.exec (p.keeper.resolve s r.cookieHeaders) w with
    | mk x w₁ =>
      cases x with
      | error c => exact lands_ofResult r (.error c) w₁
      | ok y =>
        cases y with
        | error e => exact lands_ofResult r (.ok _) _
        | ok h => exact lands_opened p s r h w₁
  exact hlands

end Portal

/-! ## What is saved -/

namespace Session

/-- The identifier under which a call files a record. -/
def StoreCall.saved? : StoreCall → Option Id
  | .save record _ => some record.id
  | _ => none

/-- The identifiers under which calls file records, in order. Calls that are refused count. -/
def savedIds (calls : List StoreCall) : List Id := calls.filterMap StoreCall.saved?

@[simp] theorem savedIds_nil : savedIds [] = [] := rfl

@[simp] theorem savedIds_load (id : Id) : savedIds [.load id] = [] := rfl

@[simp] theorem savedIds_remove (id : Id) : savedIds [.remove id] = [] := rfl

@[simp] theorem savedIds_save (record : Record) (ttl : Nat) :
    savedIds [.save record ttl] = [record.id] := rfl

@[simp] theorem savedIds_append (calls more : List StoreCall) :
    savedIds (calls ++ more) = savedIds calls ++ savedIds more :=
  List.filterMap_append

/-- The identifiers that are drawn when the count goes from `m` to `n`. -/
def Keeper.drawnIds (k : Keeper) (m n : Nat) : List Id := (List.range' m (n - m)).map k.ids

theorem Keeper.drawnIds_append (k : Keeper) {l m n : Nat} (hlm : l ≤ m) (hmn : m ≤ n) :
    k.drawnIds l m ++ k.drawnIds m n = k.drawnIds l n := by
  have hm : m = l + (m - l) := by omega
  have hlen : n - l = (m - l) + (n - m) := by omega
  rw [drawnIds, drawnIds, drawnIds, ← List.map_append, hlen, ← List.range'_append_1, ← hm]

theorem Keeper.drawnIds_succ (k : Keeper) (n : Nat) : k.drawnIds n (n + 1) = [k.ids n] := by
  simp [drawnIds]

variable {σ : Type} {s : Store σ}

namespace Store.Timed

/-- From `w` to `w₁` these calls to the store were made, and an end that is new is that of an
identifier that was saved. -/
structure Made (hs : s.Timed) (w : World σ) (calls : List StoreCall) (w₁ : World σ) : Prop where
  storeCalls : w₁.storeCalls = w.storeCalls ++ calls
  clock : w.clock ≤ w₁.clock
  drawn : w.drawn ≤ w₁.drawn
  ends : ∀ id e, hs.ends? w₁.store id = some e → hs.ends? w.store id = some e ∨ id ∈ savedIds calls

namespace Made

variable {hs : s.Timed} {w w₁ w₂ : World σ} {calls more : List StoreCall}

theorem refl (hs : s.Timed) (w : World σ) : hs.Made w [] w where
  storeCalls := (List.append_nil _).symm
  clock := Nat.le_refl _
  drawn := Nat.le_refl _
  ends _ _ he := .inl he

theorem trans (h₁ : hs.Made w calls w₁) (h₂ : hs.Made w₁ more w₂) :
    hs.Made w (calls ++ more) w₂ where
  storeCalls := by rw [h₂.storeCalls, h₁.storeCalls, List.append_assoc]
  clock := Nat.le_trans h₁.clock h₂.clock
  drawn := Nat.le_trans h₁.drawn h₂.drawn
  ends id e he := by
    rw [savedIds_append, List.mem_append]
    rcases h₂.ends id e he with he | hsaved
    · rcases h₁.ends id e he with he | hsaved
      · exact .inl he
      · exact .inr (.inl hsaved)
    · exact .inr (.inr hsaved)

/-- The ledger is no matter of the store. -/
theorem withLedger (h : hs.Made w calls w₁) (ledger : Ledger) :
    hs.Made w calls { w₁ with ledger := ledger } :=
  ⟨h.storeCalls, h.clock, h.drawn, h.ends⟩

end Made

variable (hs : s.Timed)

theorem made_announced (call : StoreCall) (w : World σ) : hs.Made w [call] (w.announced call) where
  storeCalls := rfl
  clock := Nat.le_refl _
  drawn := Nat.le_refl _
  ends _ _ he := .inl he

theorem made_remove (id : Id) (w : World σ) :
    hs.Made w [.remove id] { w.announced (.remove id) with store := s.remove id w.store } where
  storeCalls := rfl
  clock := Nat.le_refl _
  drawn := Nat.le_refl _
  ends _ _ he := .inl (hs.ends?_remove he).2

theorem made_load (id : Id) (w : World σ) :
    hs.Made w [.load id] (Storing.exec (Storing.load s id) w).2 := by
  rw [Storing.exec_load]
  cases w.outage w.storeCalls.length (.load id) with
  | some e => exact hs.made_announced _ w
  | none => exact ⟨rfl, Nat.le_refl _, Nat.le_refl _, fun _ _ he => .inl (hs.ends?_load he)⟩

theorem made_save {record : Record} {ttl : Nat} {w : World σ} {store : σ}
    (h : s.save w.clock record ttl w.store = .ok store) :
    hs.Made w [.save record ttl] { w.announced (.save record ttl) with store := store } where
  storeCalls := rfl
  clock := Nat.le_refl _
  drawn := Nat.le_refl _
  ends id e he := by
    by_cases hne : id = record.id
    · subst hne
      exact .inr (List.mem_singleton_self _)
    · exact .inl (hs.ends?_save h hne he)

theorem made_start (k : Keeper) (w : World σ) : hs.Made w [] (Storing.exec k.start w).2 := by
  rw [exec_start]
  cases expiry w.clock k.ttl with
  | error c => exact .refl hs w
  | ok t => exact ⟨(List.append_nil _).symm, Nat.le_refl _, Nat.le_succ _, fun _ _ he => .inl he⟩

/-- Finding a session saves nothing. -/
theorem made_resolve (k : Keeper) (headers : List String) (w : World σ) :
    ∃ calls, hs.Made w calls (Storing.exec (k.resolve s headers) w).2 ∧ savedIds calls = [] := by
  cases hid : k.sessionId? headers with
  | none =>
    rw [exec_resolve_none hid]
    exact ⟨[], hs.made_start k w, rfl⟩
  | some id =>
    have hload := hs.made_load id w
    rw [exec_resolve_some hid]
    revert hload
    cases Storing.exec (Storing.load s id) w with
    | mk x w₁ =>
      intro hload
      cases x with
      | error c => exact ⟨_, hload, rfl⟩
      | ok y =>
        cases y with
        | error e => exact ⟨_, hload, rfl⟩
        | ok found =>
          cases found with
          | some record => exact ⟨_, hload, rfl⟩
          | none => exact ⟨_, (hload.withLedger _).trans (hs.made_start k _), rfl⟩

end Store.Timed

/-- Identifiers never repeat: those that are drawn until the count is `n` are all different, and to
begin with the store has nothing under them. -/
structure Keeper.Unrepeated (k : Keeper) (hs : s.Timed) (w : World σ) (n : Nat) : Prop where
  apart : (k.drawnIds w.drawn n).Nodup
  absent : ∀ id ∈ k.drawnIds w.drawn n, hs.ends? w.store id = none

/-! ### Plans -/

/-- The identifiers under which a plan files a record. -/
def Plan.saves : Plan → List Id
  | .save record _ => [record.id]
  | _ => []

/-- What is left of a plan files the same. -/
theorem Plan.Leaves.saves_eq {plan left : Plan} (h : plan.Leaves left) :
    left.saves = plan.saves := by
  cases h <;> rfl

/-- A call of a plan saves what the plan says, or it leaves that to the rest of the plan. -/
theorem made_carryOn (hs : s.Timed) (k : Keeper) (plan : Plan) (w : World σ) :
    ∃ calls, hs.Made w calls (Storing.exec (k.carryOn s plan) w).2 ∧
      (savedIds calls = [] ∨ savedIds calls = plan.saves ∧
        ∀ left, (Storing.exec (k.carryOn s plan) w).1 ≠ .ok (.ok (.left left))) := by
  have hremove (id : Id) (left : Plan) : ∃ calls,
      hs.Made w calls (Storing.exec (do Storing.remove s id; pure (Progress.left left)) w).2 ∧
        savedIds calls = [] := by
    rw [exec_remove_left]
    cases w.outage w.storeCalls.length (.remove id) with
    | some e => exact ⟨_, hs.made_announced _ w, rfl⟩
    | none => exact ⟨_, hs.made_remove id w, rfl⟩
  cases plan with
  | nothing => exact ⟨[], .refl hs w, .inl rfl⟩
  | save record replaced =>
    cases replaced with
    | some old =>
      obtain ⟨calls, hmade, hsaved⟩ := hremove old (.save record none)
      exact ⟨calls, hmade, .inl hsaved⟩
    | none =>
      rw [exec_carryOn_save]
      cases expiry w.clock k.ttl with
      | error c => exact ⟨[], .refl hs w, .inl rfl⟩
      | ok t =>
        dsimp only
        cases w.outage w.storeCalls.length (.save (record.endingAt t) (k.ttl * 1000)) with
        | some e => exact ⟨_, hs.made_announced _ w, .inr ⟨rfl, nofun⟩⟩
        | none =>
          cases hsave : s.save w.clock (record.endingAt t) (k.ttl * 1000) w.store with
          | error c => exact ⟨_, hs.made_announced _ w, .inr ⟨rfl, nofun⟩⟩
          | ok store => exact ⟨_, hs.made_save hsave, .inr ⟨rfl, nofun⟩⟩
  | remove ids =>
    cases ids with
    | nil => exact ⟨[], .refl hs w, .inl rfl⟩
    | cons id rest =>
      obtain ⟨calls, hmade, hsaved⟩ := hremove id (.remove rest)
      exact ⟨calls, hmade, .inl hsaved⟩

end Session

/-! ## Steps of requests -/

/-- The identifiers under which a request has yet to file a record. -/
def Stage.saves : Stage → List Session.Id
  | .closing _ plan => plan.saves
  | _ => []

/-- The identifiers under which requests have yet to file a record. -/
def Traffic.saves {σ : Type} (t : Traffic σ) : List Session.Id :=
  t.flights.flatMap fun f => f.stage.saves

/-- A session that was found is as it was found. -/
def Stage.Untouched : Stage → Prop
  | .opened session => session.takePlan.1 = .nothing
  | _ => True

theorem Stage.saves_ofResult (result : Except Session.Crash Response) :
    (Stage.ofResult result).saves = [] := by
  cases result <;> rfl

theorem Stage.untouched_ofResult (result : Except Session.Crash Response) :
    (Stage.ofResult result).Untouched := by
  cases result <;> trivial

namespace Portal

open Session (Store World Storing Handle Plan Id StoreCall savedIds)

variable {σ : Type} {p : Portal} {s : Store σ} {r : Request} {h : Handle} {w : World σ}

/-- A handler plans to save only under an identifier that it has drawn. -/
theorem saves_handleWith (hreg : p.registry = Graphql.portalRegistry)
    (hplan : h.takePlan.1 = .nothing) (id : Id) :
    (p.handleWith r h w).2.1.takePlan.1.saves.count id ≤
      (p.keeper.drawnIds w.drawn (p.handleWith r h w).2.2.drawn).count id := by
  rw [handleWith_eq]
  cases hin : p.signsIn? (scene h w).ledger.directoryCalls r with
  | some found =>
    obtain ⟨user, password⟩ := found
    obtain ⟨login, hexec⟩ := handle_signIn hin
    rw [hexec]
    have hdrawn : p.keeper.drawnIds w.drawn ((scene h w).drawn + 1) = [p.keeper.ids w.drawn] :=
      p.keeper.drawnIds_succ w.drawn
    simp only [hdrawn]
    exact Nat.le_refl _
  | none =>
    by_cases hout : SignsOut r
    · obtain ⟨l, -, hexec⟩ := handle_signOut (p := p) (s := scene h w) hout
      rw [hexec]
      exact Nat.zero_le _
    · have hkeep : (Task.exec (p.handle r) (scene h w)).2.session = h :=
        (handle_other hreg hin hout).1
      simp only [hkeep, hplan]
      exact Nat.zero_le _

/-- **A step of a request.** It saves and leaves to be saved no more than it had to save before and
than was drawn in it. -/
theorem spends_fly (hreg : p.registry = Graphql.portalRegistry) (hs : s.Timed) {f : Flight}
    (hf : f.stage.Untouched) (w : World σ) :
    ∃ calls, hs.Made w calls (p.fly s f w).2 ∧ (p.fly s f w).1.stage.Untouched ∧
      ∀ id, (savedIds calls).count id + (p.fly s f w).1.stage.saves.count id ≤
        f.stage.saves.count id + (p.keeper.drawnIds w.drawn (p.fly s f w).2.drawn).count id := by
  -- a step that saves nothing and leaves nothing to be saved
  have hnone {calls : List StoreCall} {stage : Stage} (hsaved : savedIds calls = [])
      (hstage : stage.saves = []) (id : Id) (n : Nat) :
      (savedIds calls).count id + stage.saves.count id ≤ n := by
    rw [hsaved, hstage]
    exact Nat.zero_le n
  obtain ⟨r, stage⟩ := f
  cases stage with
  | arrived =>
    obtain ⟨calls, hmade, hsaved⟩ := hs.made_resolve p.keeper r.cookieHeaders w
    rw [fly_eq]
    simp only [proceed, Session.Serving.exec_bind, Session.Serving.exec_run]
    cases hfound : Storing.exec (p.keeper.resolve s r.cookieHeaders) w with
    | mk x w₁ =>
      rw [hfound] at hmade
      cases x with
      | error c => exact ⟨calls, hmade, trivial, fun id => hnone hsaved rfl id _⟩
      | ok y =>
        cases y with
        | error e => exact ⟨calls, hmade.withLedger _, trivial, fun id => hnone hsaved rfl id _⟩
        | ok h =>
          exact ⟨calls, hmade, Session.takePlan_of_resolve hfound, fun id => hnone hsaved rfl id _⟩
  | opened h =>
    have hdrawn := (drawn_handle (r := r) hreg (scene h w)).1
    refine ⟨[], ⟨(List.append_nil _).symm, Nat.le_refl _, hdrawn, fun _ _ he => .inl he⟩, trivial,
      fun id => ?_⟩
    have hsaves := saves_handleWith (r := r) (w := w) hreg hf id
    show 0 + _ ≤ 0 + _
    rw [Nat.zero_add, Nat.zero_add]
    exact hsaves
  | closing response plan =>
    obtain ⟨calls, hmade, hsaved⟩ := Session.made_carryOn hs p.keeper plan w
    cases hc : Storing.exec (p.keeper.carryOn s plan) w with
    | mk x w₁ =>
      rw [hc] at hmade hsaved
      obtain ⟨left, rfl, hfly⟩ | ⟨result, ledger, hfly⟩ :=
        fly_closing r response hc
      · rw [hfly]
        refine ⟨calls, hmade, trivial, fun id => ?_⟩
        rcases hsaved with hsaved | ⟨-, hleft⟩
        · have hsame : left.saves = plan.saves := (Session.leaves_of_carryOn hc).saves_eq
          show _ + left.saves.count id ≤ plan.saves.count id + _
          rw [hsaved, hsame, List.count_nil, Nat.zero_add]
          exact Nat.le_add_right _ _
        · exact absurd rfl (hleft left)
      · rw [hfly]
        refine ⟨calls, hmade.withLedger ledger, Stage.untouched_ofResult result, fun id => ?_⟩
        rcases hsaved with hsaved | ⟨hsaved, -⟩
        · exact hnone hsaved (Stage.saves_ofResult result) id _
        · rw [hsaved, Stage.saves_ofResult]
          exact Nat.le_add_right _ _
  | answered response => exact ⟨[], .refl hs w, trivial, fun id => hnone rfl rfl id _⟩
  | broken c => exact ⟨[], .refl hs w, trivial, fun id => hnone rfl rfl id _⟩

/-! ## Runs -/

/-- Since the count of identifiers was `n`, these calls were made; what they saved and what is
still to be saved is covered by what was drawn. -/
structure Owes (p : Portal) (n : Nat) (calls : List StoreCall) (t : Traffic σ) : Prop where
  untouched : ∀ f ∈ t.flights, f.stage.Untouched
  covered : ∀ id, (savedIds calls).count id + t.saves.count id ≤
    (p.keeper.drawnIds n t.world.drawn).count id

theorem owes_start (p : Portal) (w : World σ) : p.Owes w.drawn [] ⟨w, []⟩ where
  untouched _ hf := nomatch hf
  covered _ := Nat.zero_le _

section Runs

variable {n : Nat} {calls : List StoreCall} {t : Traffic σ}

/-- Every move keeps the balance. -/
theorem owes_move (hreg : p.registry = Graphql.portalRegistry) (hs : s.Timed)
    (ht : p.Owes n calls t) (hn : n ≤ t.world.drawn) (m : Move) :
    ∃ more, hs.Made t.world more (p.move s t m).world ∧
      p.Owes n (calls ++ more) (p.move s t m) := by
  cases m with
  | arrive r =>
    refine ⟨[], .refl hs t.world, ?_, fun id => ?_⟩
    · intro f hf
      rcases List.mem_append.1 hf with hf | hf
      · exact ht.untouched f hf
      · rw [List.mem_singleton.1 hf]
        trivial
    · have hsaves : (p.move s t (.arrive r)).saves = t.saves := by
        simp [move, Traffic.saves, Stage.saves]
      rw [List.append_nil, hsaves]
      exact ht.covered id
  | pause ms =>
    refine ⟨[], ⟨(List.append_nil _).symm, Nat.le_add_right _ _, Nat.le_refl _,
      fun _ _ he => .inl he⟩, ht.untouched, fun id => ?_⟩
    rw [List.append_nil]
    exact ht.covered id
  | advance i =>
    cases hi : t.flights[i]? with
    | none =>
      have hstay : p.move s t (.advance i) = t := by simp [move, hi]
      rw [hstay]
      exact ⟨[], .refl hs t.world, by rwa [List.append_nil]⟩
    | some f =>
      obtain ⟨hlt, hget⟩ := List.getElem?_eq_some_iff.1 hi
      obtain ⟨before, after, hsplit, -, hset⟩ :
          ∃ before after, t.flights = before ++ t.flights[i] :: after ∧ before.length = i ∧
            t.flights.set i (p.fly s f t.world).1 = before ++ (p.fly s f t.world).1 :: after :=
        List.exists_of_set hlt
      rw [hget] at hsplit
      have hmove : p.move s t (.advance i) =
          ⟨(p.fly s f t.world).2, before ++ (p.fly s f t.world).1 :: after⟩ := by
        simp [move, hi, hset]
      have hmem {g : Flight} (hg : g ∈ before ++ f :: after) : g.stage.Untouched :=
        ht.untouched g (hsplit ▸ hg)
      obtain ⟨more, hmade, huntouched, hspent⟩ := spends_fly hreg hs
        (hmem (List.mem_append_right _ List.mem_cons_self)) t.world
      rw [hmove]
      refine ⟨more, hmade, ?_, fun id => ?_⟩
      · intro g hg
        rcases List.mem_append.1 hg with hg | hg
        · exact hmem (List.mem_append_left _ hg)
        · rcases List.mem_cons.1 hg with rfl | hg
          · exact huntouched
          · exact hmem (List.mem_append_right _ (List.mem_cons_of_mem _ hg))
      · have hcovered := ht.covered id
        have hspent := hspent id
        rw [← p.keeper.drawnIds_append hn hmade.drawn]
        simp only [Traffic.saves, hsplit, Session.savedIds_append, List.flatMap_append,
          List.flatMap_cons, List.count_append] at hcovered ⊢
        omega

/-- The balance of a whole run. -/
theorem owes_conduct (hreg : p.registry = Graphql.portalRegistry) (hs : s.Timed)
    (ht : p.Owes n calls t) (hn : n ≤ t.world.drawn) (ms : List Move) :
    ∃ more, hs.Made t.world more (p.conduct s t ms).world ∧
      p.Owes n (calls ++ more) (p.conduct s t ms) := by
  induction ms generalizing calls t with
  | nil => exact ⟨[], .refl hs t.world, by rwa [List.append_nil]⟩
  | cons m ms ih =>
    obtain ⟨first, hfirst, hmoved⟩ := owes_move hreg hs ht hn m
    obtain ⟨later, hlater, hdone⟩ := ih hmoved (Nat.le_trans hn hfirst.drawn)
    exact ⟨first ++ later, hfirst.trans hlater, by rw [← List.append_assoc]; exact hdone⟩

end Runs

/-- The world after the first `n` of the moves, when no request was in flight before. -/
def after (p : Portal) (s : Store σ) (w : World σ) (ms : List Move) (n : Nat) : World σ :=
  (p.conduct s ⟨w, []⟩ (ms.take n)).world

theorem conduct_take (p : Portal) (s : Store σ) (t : Traffic σ) (ms : List Move) {i j : Nat}
    (hij : i ≤ j) :
    p.conduct s t (ms.take j) = p.conduct s (p.conduct s t (ms.take i)) ((ms.take j).drop i) := by
  have hearlier : ms.take i = (ms.take j).take i := by rw [List.take_take, Nat.min_eq_left hij]
  rw [conduct, conduct, conduct, ← List.foldl_append, hearlier, List.take_append_drop]

section NoReturn

variable {ms : List Move} {i j k : Nat} {id : Id}

/-- A run up to three points: what was saved until the last one is covered by what was drawn in
all. -/
theorem made_after (hreg : p.registry = Graphql.portalRegistry) (hs : s.Timed) (w : World σ)
    (ms : List Move) (hij : i ≤ j) (hjk : j ≤ k) :
    ∃ first second third, hs.Made w first (p.after s w ms i) ∧
      hs.Made (p.after s w ms i) second (p.after s w ms j) ∧
      hs.Made (p.after s w ms j) third (p.after s w ms k) ∧
      ∀ id, (savedIds first).count id + (savedIds second).count id + (savedIds third).count id ≤
        (p.keeper.drawnIds w.drawn (p.after s w ms ms.length).drawn).count id := by
  obtain ⟨first, hfirst, howes⟩ :=
    owes_conduct hreg hs (owes_start p w) (Nat.le_refl _) (ms.take i)
  obtain ⟨second, hsecond, howes⟩ := owes_conduct hreg hs howes hfirst.drawn ((ms.take j).drop i)
  rw [← conduct_take p s _ ms hij] at hsecond howes
  have hj := hfirst.trans hsecond
  obtain ⟨third, hthird, howes⟩ := owes_conduct hreg hs howes hj.drawn ((ms.take k).drop j)
  rw [← conduct_take p s _ ms hjk] at hthird howes
  have hk' := hj.trans hthird
  obtain ⟨last, hlast, -⟩ := owes_conduct hreg hs howes hk'.drawn (ms.drop k)
  have hall : p.conduct s (p.conduct s ⟨w, []⟩ (ms.take k)) (ms.drop k) =
      p.conduct s ⟨w, []⟩ (ms.take ms.length) := by
    rw [conduct, conduct, conduct, ← List.foldl_append, List.take_append_drop, List.take_length]
  rw [hall] at hlast
  refine ⟨first, second, third, hfirst, hsecond, hthird, fun id => ?_⟩
  have hcovered := howes.covered id
  have hsum := congrArg (List.count id) (p.keeper.drawnIds_append hk'.drawn hlast.drawn)
  simp only [List.nil_append, Session.savedIds_append, List.count_append, after] at hcovered hsum ⊢
  omega

/-- What is true of sessions over a run. -/
structure NoReturn (p : Portal) {s : Store σ} (hs : s.Timed) (w : World σ)
    (ms : List Move) : Prop where
  /-- Nothing is saved twice under an identifier, even if calls that the store refuses count. -/
  saved_once : ∃ calls, (p.after s w ms ms.length).storeCalls = w.storeCalls ++ calls ∧
    ∀ id, (savedIds calls).count id ≤ 1
  /-- What was live and no longer is — its owner has signed out or in again, or its time is over —
  stays gone. -/
  gone : ∀ i j k id, i ≤ j → j ≤ k →
    s.Live (p.after s w ms i).clock (p.after s w ms i).store id →
    ¬s.Live (p.after s w ms j).clock (p.after s w ms j).store id →
    ¬s.Live (p.after s w ms k).clock (p.after s w ms k).store id
  /-- As long as something is kept under an identifier, its end is the same. -/
  fixed : ∀ i j id e e', i ≤ j → hs.ends? (p.after s w ms i).store id = some e →
    hs.ends? (p.after s w ms j).store id = some e' → e' = e

/-- **No return.** However the steps of requests are mixed, whatever calls the store refuses and
whatever it has to begin with: when identifiers never repeat, no request saves under one that was
saved before, so a session that is gone stays gone and no session lasts longer than it did at
first. -/
theorem no_return (hreg : p.registry = Graphql.portalRegistry) (hs : s.Timed) (w : World σ)
    (ms : List Move)
    (hids : p.keeper.Unrepeated hs w (p.after s w ms ms.length).drawn) : p.NoReturn hs w ms := by
  have hone (id : Id) :
      (p.keeper.drawnIds w.drawn (p.after s w ms ms.length).drawn).count id ≤ 1 :=
    List.nodup_iff_count_le_one.1 hids.apart id
  -- what is kept at one point is not saved from there on
  have hkept {first later : List StoreCall} {v : World σ} {id : Id} {e : Nat}
      (hfirst : hs.Made w first v) (he : hs.ends? v.store id = some e)
      (hcount : (savedIds first).count id + (savedIds later).count id ≤
        (p.keeper.drawnIds w.drawn (p.after s w ms ms.length).drawn).count id) :
      id ∉ savedIds later := by
    intro hlater
    have hpos := List.count_pos_iff.2 hlater
    rcases hfirst.ends id e he with he | hsaved
    · have hmem : id ∈ p.keeper.drawnIds w.drawn (p.after s w ms ms.length).drawn :=
        List.count_pos_iff.1 (by omega)
      rw [hids.absent id hmem] at he
      cases he
    · have hpos' := List.count_pos_iff.2 hsaved
      have hone := hone id
      omega
  refine ⟨?_, ?_, ?_⟩
  · obtain ⟨first, second, third, hfirst, hsecond, hthird, hcount⟩ :=
      made_after hreg hs w ms (Nat.zero_le ms.length) (Nat.le_refl ms.length)
    refine ⟨first ++ second ++ third,
      ((hfirst.trans hsecond).trans hthird).storeCalls, fun id => ?_⟩
    rw [Session.savedIds_append, Session.savedIds_append, List.count_append, List.count_append]
    exact Nat.le_trans (hcount id) (hone id)
  · intro i j k id hij hjk hlive hgone hback
    obtain ⟨first, second, third, hfirst, hsecond, hthird, hcount⟩ :=
      made_after hreg hs w ms hij hjk
    rw [hs.live_iff] at hlive hgone hback
    obtain ⟨e, he, -⟩ := hlive
    obtain ⟨e', he', hlt⟩ := hback
    have hnot : id ∉ savedIds third := by
      have hcount := hcount id
      exact hkept hfirst he (by omega)
    rcases hthird.ends id e' he' with hj | hsaved
    · exact hgone ⟨e', hj, Nat.lt_of_le_of_lt hthird.clock hlt⟩
    · exact hnot hsaved
  · intro i j id e e' hij he he'
    obtain ⟨first, second, third, hfirst, hsecond, hthird, hcount⟩ :=
      made_after hreg hs w ms hij (Nat.le_refl j)
    have hcount := hcount id
    rcases hsecond.ends id e' he' with hi | hsaved
    · rw [he] at hi
      exact (Option.some.inj hi).symm
    · exact absurd hsaved (hkept hfirst he (by omega))

end NoReturn

/-- Two requests that sign in at the same time: both sessions are found before either request is
handled, and a second passes before either is filed. -/
def crossedSignIns : List Move :=
  [.arrive Rehearsal.signIn, .arrive Rehearsal.signIn, .advance 0, .advance 1,
    .advance 1, .advance 0, .pause 1000, .advance 0, .advance 1]

/-- The two requests draw four identifiers, and these are different. -/
theorem unrepeated_crossedSignIns {s : Store σ} (hs : s.Timed) (st : σ)
    (hempty : ∀ id, hs.ends? st id = none)
    (hdrawn : (Rehearsal.portal.after s (.start st 0) crossedSignIns crossedSignIns.length).drawn =
      4) :
    Rehearsal.portal.keeper.Unrepeated hs (.start st 0)
      (Rehearsal.portal.after s (.start st 0) crossedSignIns crossedSignIns.length).drawn where
  apart := by
    rw [hdrawn]
    show (Rehearsal.portal.keeper.drawnIds 0 4).Nodup
    decide
  absent id _ := hempty id

/-- The rehearsal portal, on the store in memory and on a server, with two requests that sign in at
the same time. -/
theorem no_return_rehearsal :
    Rehearsal.portal.registry = Graphql.portalRegistry ∧
      (Rehearsal.portal.keeper.Unrepeated Session.Memory.timed (.start .empty 0)
          (Rehearsal.portal.after Session.Memory.store (.start .empty 0) crossedSignIns
            crossedSignIns.length).drawn ∧
        Rehearsal.portal.NoReturn Session.Memory.timed (.start .empty 0) crossedSignIns) ∧
      Rehearsal.portal.keeper.Unrepeated Session.Shared.timed (.start .empty 0)
          (Rehearsal.portal.after Session.Shared.store (.start .empty 0) crossedSignIns
            crossedSignIns.length).drawn ∧
        Rehearsal.portal.NoReturn Session.Shared.timed (.start .empty 0) crossedSignIns := by
  have hreg : Rehearsal.portal.registry = Graphql.portalRegistry := rfl
  have hmemory := unrepeated_crossedSignIns Session.Memory.timed .empty (fun _ => rfl)
    (by decide +kernel)
  have hshared := unrepeated_crossedSignIns Session.Shared.timed .empty (fun _ => rfl)
    (by decide +kernel)
  exact ⟨hreg, ⟨hmemory, no_return hreg _ _ _ hmemory⟩, hshared, no_return hreg _ _ _ hshared⟩

end Portal

end Intranet
