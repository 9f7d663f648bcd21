import Intranet.Proofs.Authentication
import Intranet.Proofs.Records

/-!
# Portals on stores that answer alike

Two stores mirror each other when their states can be kept alike: what one answers the other
answers, and alike states are left. Then no request can tell on which of them a portal runs: the
same session is found for it, it has the same response, and the worlds that are left differ in
nothing but the states of the stores.

* `Store.Mirror` — stores that answer alike;
* `Store.Mirror.Twins` — work that cannot tell them apart, and its composition;
* `twins_resolve`, `twins_carryOut` — finding a session and writing it back are such work;
* `mirror_serve` — so is serving a request;
* `transcript_mirror` — and a whole run.
-/

namespace Intranet

namespace Session

variable {σ τ α β : Type}

/-! ## Stores that answer alike -/

/-- Two stores that answer alike as long as nothing but storable records is saved, for `ttl`
milliseconds and not after `last`. -/
structure Store.Mirror (s : Store σ) (t : Store τ) (ttl last : Nat) where
  /-- The states have the same records at a time. -/
  alike : Nat → σ → τ → Prop
  /-- As time goes by, alike states stay alike. -/
  later : ∀ {now now₁ x y}, now ≤ now₁ → alike now x y → alike now₁ x y
  /-- Both stores give the same answer, and records they give are storable. -/
  load : ∀ {now x y} (id : Id), alike now x y → ∃ found, (s.load now id x).1 = .ok found ∧
    (t.load now id y).1 = .ok found ∧ (∀ record ∈ found, Record.Storable record) ∧
    alike now (s.load now id x).2 (t.load now id y).2
  /-- Both stores save a record. -/
  save : ∀ {now record x y}, alike now x y → Record.Storable record → now ≤ last →
    ∃ x₁ y₁, s.save now record ttl x = .ok x₁ ∧ t.save now record ttl y = .ok y₁ ∧ alike now x₁ y₁
  /-- Both stores remove what is filed under an identifier. -/
  remove : ∀ {now x y} (id : Id), alike now x y → alike now (s.remove id x) (t.remove id y)

/-- The world with another store. -/
def World.on (w : World σ) (y : τ) : World τ :=
  ⟨y, w.clock, w.drawn, w.outage, w.storeCalls, w.ledger⟩

@[simp] theorem World.on_clock (w : World σ) (y : τ) : (w.on y).clock = w.clock := rfl

@[simp] theorem World.on_store (w : World σ) (y : τ) : (w.on y).store = y := rfl

@[simp] theorem World.on_drawn (w : World σ) (y : τ) : (w.on y).drawn = w.drawn := rfl

@[simp] theorem World.on_outage (w : World σ) (y : τ) : (w.on y).outage = w.outage := rfl

@[simp] theorem World.on_storeCalls (w : World σ) (y : τ) :
    (w.on y).storeCalls = w.storeCalls := rfl

namespace Store.Mirror

variable {s : Store σ} {t : Store τ} {ttl last : Nat}

/-- Two ends of work at a time: the same result, and worlds that differ in nothing but the alike
states of the stores. -/
structure Same (m : s.Mirror t ttl last) (now : Nat) (a : α × World σ)
    (b : α × World τ) : Prop where
  result : b.1 = a.1
  world : ∃ y, b.2 = a.2.on y ∧ m.alike now a.2.store y
  clock : a.2.clock = now

/-- The two ends are one result, in a world and in the same world on the other store. -/
theorem Same.split {m : s.Mirror t ttl last} {now : Nat} {a : α × World σ} {b : α × World τ}
    (h : m.Same now a b) :
    ∃ x w y, a = (x, w) ∧ b = (x, w.on y) ∧ m.alike w.clock w.store y ∧ w.clock = now := by
  obtain ⟨x, w⟩ := a
  obtain ⟨x', v⟩ := b
  obtain ⟨hresult, ⟨y, hworld, halike⟩, hclock⟩ := h
  obtain rfl : x' = x := hresult
  obtain rfl : v = w.on y := hworld
  obtain rfl : w.clock = now := hclock
  exact ⟨x', w, y, rfl, rfl, halike, rfl⟩

/-- Work that cannot tell the stores apart. A value that it gives is as `Q` says. -/
def Twins (m : s.Mirror t ttl last) (Q : α → Prop) (a : Storing σ α) (b : Storing τ α) : Prop :=
  ∀ w y, m.alike w.clock w.store y → w.clock ≤ last →
    m.Same w.clock (a.exec w) (b.exec (w.on y)) ∧ ∀ x, (a.exec w).1 = .ok (.ok x) → Q x

variable {m : s.Mirror t ttl last} {Q : α → Prop} {R : β → Prop}

theorem twins_pure {x : α} (hx : Q x) : m.Twins Q (pure x) (pure x) := by
  intro w y halike _
  refine ⟨⟨rfl, ⟨y, rfl, halike⟩, rfl⟩, ?_⟩
  rintro x' h
  cases h
  exact hx

theorem twins_bind {a : Storing σ α} {b : Storing τ α} {f : α → Storing σ β} {g : α → Storing τ β}
    (h : m.Twins Q a b) (hfg : ∀ x, Q x → m.Twins R (f x) (g x)) :
    m.Twins R (a >>= f) (b >>= g) := by
  intro w y halike hlast
  obtain ⟨hsame, hQ⟩ := h w y halike hlast
  obtain ⟨result, w₁, y₁, ha, hb, halike₁, hclock⟩ := hsame.split
  rw [ha] at hQ
  rw [Storing.exec_bind, Storing.exec_bind, ha, hb]
  rw [← hclock] at hlast ⊢
  cases result with
  | error c => exact ⟨⟨rfl, ⟨y₁, rfl, halike₁⟩, rfl⟩, fun x hx => by cases hx⟩
  | ok result =>
    cases result with
    | error e => exact ⟨⟨rfl, ⟨y₁, rfl, halike₁⟩, rfl⟩, fun x hx => by cases hx⟩
    | ok x => exact hfg x (hQ x rfl) w₁ y₁ halike₁ hlast

/-- Work that starts by looking at the world. -/
theorem twins_get {f : World σ → Storing σ α} {g : World τ → Storing τ α}
    (h : ∀ w y, m.Twins Q (f w) (g (w.on y))) : m.Twins Q (get >>= f) (get >>= g) :=
  fun w y halike hlast => h w y w y halike hlast

theorem twins_orCrash {x : Except Crash α} (hx : ∀ a, x = .ok a → Q a) :
    m.Twins Q (Storing.orCrash x) (Storing.orCrash x) := by
  intro w y halike _
  cases x with
  | error c => exact ⟨⟨rfl, ⟨y, rfl, halike⟩, rfl⟩, fun a ha => by cases ha⟩
  | ok a =>
    refine ⟨⟨rfl, ⟨y, rfl, halike⟩, rfl⟩, ?_⟩
    rintro a' h
    cases h
    exact hx a rfl

theorem twins_write (level : Level) (text : String) :
    m.Twins (fun _ => True) (Storing.write level text) (Storing.write level text) :=
  fun _ y halike _ => ⟨⟨rfl, ⟨y, rfl, halike⟩, rfl⟩, fun _ _ => trivial⟩

/-! ## Calls -/

theorem twins_load (id : Id) :
    m.Twins (fun found => ∀ record ∈ found, Record.Storable record) (Storing.load s id)
      (Storing.load t id) := by
  intro w y halike _
  obtain ⟨found, hs, ht, hstorable, halike₁⟩ := m.load id halike
  rw [Storing.exec_load, Storing.exec_load]
  simp only [World.on_outage, World.on_storeCalls, World.on_clock, World.on_store]
  cases w.outage w.storeCalls.length (.load id) with
  | some e => exact ⟨⟨rfl, ⟨y, rfl, halike⟩, rfl⟩, fun x hx => by cases hx⟩
  | none =>
    refine ⟨⟨?_, ⟨_, rfl, halike₁⟩, rfl⟩, ?_⟩
    · dsimp only
      rw [hs, ht]
    · intro x hx
      dsimp only at hx
      rw [hs] at hx
      cases hx
      exact hstorable

theorem twins_save {record : Record} (hrecord : record.Storable) :
    m.Twins (fun _ => True) (Storing.save s record ttl) (Storing.save t record ttl) := by
  intro w y halike hlast
  obtain ⟨x₁, y₁, hs, ht, halike₁⟩ := m.save halike hrecord hlast
  rw [Storing.exec_save, Storing.exec_save]
  simp only [World.on_outage, World.on_storeCalls, World.on_clock, World.on_store]
  cases w.outage w.storeCalls.length (.save record ttl) with
  | some e => exact ⟨⟨rfl, ⟨y, rfl, halike⟩, rfl⟩, fun _ _ => trivial⟩
  | none =>
    simp only [hs, ht]
    exact ⟨⟨rfl, ⟨y₁, rfl, halike₁⟩, rfl⟩, fun _ _ => trivial⟩

theorem twins_remove (id : Id) :
    m.Twins (fun _ => True) (Storing.remove s id) (Storing.remove t id) := by
  intro w y halike _
  rw [Storing.exec_remove, Storing.exec_remove]
  simp only [World.on_outage, World.on_storeCalls, World.on_store]
  cases w.outage w.storeCalls.length (.remove id) with
  | some e => exact ⟨⟨rfl, ⟨y, rfl, halike⟩, rfl⟩, fun _ _ => trivial⟩
  | none => exact ⟨⟨rfl, ⟨_, rfl, m.remove id halike⟩, rfl⟩, fun _ _ => trivial⟩

/-! ## The session of a request -/

/-- A session with no claims but the one that signing in sets. -/
def Plain (h : Handle) : Prop := IsAdminAtMost h.record.claims

theorem twins_start (k : Keeper) : m.Twins Plain k.start k.start := by
  intro w y halike _
  rw [exec_start, exec_start]
  simp only [World.on_clock, World.on_drawn]
  cases expiry w.clock k.ttl with
  | error c => exact ⟨⟨rfl, ⟨y, rfl, halike⟩, rfl⟩, fun x hx => by cases hx⟩
  | ok t =>
    refine ⟨⟨rfl, ⟨y, rfl, halike⟩, rfl⟩, ?_⟩
    intro h hh
    cases hh
    exact .inl rfl

/-- Finding a session. -/
theorem twins_resolve (k : Keeper) (headers : List String) :
    m.Twins Plain (k.resolve s headers) (k.resolve t headers) := by
  unfold Keeper.resolve
  cases k.sessionId? headers with
  | none => exact twins_start k
  | some id =>
    refine twins_bind (twins_load id) fun found hfound => ?_
    cases found with
    | some record => exact twins_pure (hfound record rfl).claims
    | none => exact twins_bind (twins_write _ _) fun _ _ => twins_start k

/-- A plan that saves nothing but a plain session. -/
def PlainPlan (plan : Plan) : Prop :=
  ∀ record replaced, plan = .save record replaced → IsAdminAtMost record.claims

theorem twins_removeAll (ids : List Id) :
    m.Twins (fun _ => True) (forIn ids PUnit.unit fun id _ => do
        Storing.remove s id
        pure (ForInStep.yield PUnit.unit))
      (forIn ids PUnit.unit fun id _ => do
        Storing.remove t id
        pure (ForInStep.yield PUnit.unit)) := by
  induction ids with
  | nil => exact twins_pure trivial
  | cons id ids ih =>
    rw [List.forIn_cons, List.forIn_cons]
    have hstep : m.Twins (fun step => step = ForInStep.yield PUnit.unit)
        (do Storing.remove s id; pure (ForInStep.yield PUnit.unit))
        (do Storing.remove t id; pure (ForInStep.yield PUnit.unit)) :=
      twins_bind (twins_remove id) fun _ _ => twins_pure rfl
    refine twins_bind hstep fun step hyield => ?_
    rw [hyield]
    exact ih

/-- Carrying a plan out. -/
theorem twins_carryOut (k : Keeper) {m : s.Mirror t (k.ttl * 1000) last} {plan : Plan}
    (hplan : PlainPlan plan) :
    m.Twins (fun _ => True) (k.carryOut s plan) (k.carryOut t plan) := by
  cases plan with
  | nothing => exact twins_pure trivial
  | save record replaced =>
    have hclaims := hplan record replaced rfl
    have hrest : m.Twins (fun _ => True)
        (do
          let expiresAt ← Storing.orCrash (expiry (← get).clock k.ttl)
          Storing.save s { record with expiresAt := expiresAt } (k.ttl * 1000)
          pure (some (k.sessionCookie record.id)))
        (do
          let expiresAt ← Storing.orCrash (expiry (← get).clock k.ttl)
          Storing.save t { record with expiresAt := expiresAt } (k.ttl * 1000)
          pure (some (k.sessionCookie record.id))) := by
      refine twins_get fun w y => ?_
      rw [World.on_clock]
      refine twins_bind (twins_orCrash fun e he => held_of_expiry he) fun e he => ?_
      have hrecord : Record.Storable { record with expiresAt := e } := ⟨hclaims, he.1, he.2⟩
      exact twins_bind (twins_save hrecord) fun _ _ => twins_pure trivial
    cases replaced with
    | none => exact hrest
    | some old => exact twins_bind (twins_remove old) fun _ _ => hrest
  | remove ids => exact twins_bind (twins_removeAll ids) fun _ _ => twins_pure trivial

end Store.Mirror

end Session

/-! ## Requests -/

namespace Portal

open Http (Request Response)
open Session (Store World Serving Storing Handle)
open Session.Store.Mirror (Plain PlainPlan)

variable {σ τ : Type} {p : Portal} {s : Store σ} {t : Store τ} {last : Nat} {r : Request}

/-- Handling a request leaves no claims in its session but the one that signing in sets. -/
theorem plain_handle (hreg : p.registry = Graphql.portalRegistry) {scene : Scene}
    (h : Plain scene.session) : Plain (Task.exec (p.handle r) scene).2.session := by
  cases hin : p.signsIn? scene.ledger.directoryCalls r with
  | some found =>
    obtain ⟨user, password⟩ := found
    obtain ⟨login, hexec⟩ := handle_signIn hin
    rw [hexec]
    refine .inr ⟨user.isAdmin, ?_⟩
    rcases h with hnone | ⟨isAdmin, hadmin⟩
    · show Members.insert _ _ scene.session.record.claims = _
      rw [hnone]
      rfl
    · show Members.insert _ _ scene.session.record.claims = _
      rw [hadmin]
      rfl
  | none =>
    by_cases hout : SignsOut r
    · obtain ⟨l, -, hexec⟩ := handle_signOut (p := p) (s := scene) hout
      rw [hexec]
      exact h
    · rw [(handle_other hreg hin hout).1]
      exact h

theorem plainPlan_takePlan {h : Handle} (hplain : Plain h) : PlainPlan h.takePlan.1 := by
  intro record replaced hplan
  unfold Handle.takePlan at hplan
  split at hplan
  · cases hplan
  · split at hplan
    · cases hplan
      exact hplain
    · cases hplan

theorem handleWith_on (p : Portal) (r : Request) (h : Handle) (w : World σ) (y : τ) :
    p.handleWith r h (w.on y) =
      ((p.handleWith r h w).1, (p.handleWith r h w).2.1, (p.handleWith r h w).2.2.on y) := rfl

/-- Serving a request between finding its session and writing it back. -/
theorem mirror_withSession (hreg : p.registry = Graphql.portalRegistry)
    (m : s.Mirror t (p.keeper.ttl * 1000) last) {w : World σ} {y : τ}
    (halike : m.alike w.clock w.store y) (hlast : w.clock ≤ last) :
    m.Same w.clock ((p.withSession s r).exec w) ((p.withSession t r).exec (w.on y)) := by
  obtain ⟨hfound, hplain⟩ :=
    Store.Mirror.twins_resolve (m := m) p.keeper r.cookieHeaders w y halike hlast
  obtain ⟨x, w₁, y₁, hs, ht, halike₁, hclock⟩ := hfound.split
  rw [hs] at hplain
  rw [← hclock] at hlast ⊢
  cases x with
  | error c =>
    rw [exec_withSession_crashed hs, exec_withSession_crashed ht]
    exact ⟨rfl, ⟨y₁, rfl, halike₁⟩, rfl⟩
  | ok found =>
    cases found with
    | error e =>
      rw [exec_withSession_refused hs, exec_withSession_refused ht]
      exact ⟨rfl, ⟨y₁, rfl, halike₁⟩, rfl⟩
    | ok h =>
      have hleft : Plain (p.handleWith r h w₁).2.1 := by
        rw [handleWith_eq]
        exact plain_handle hreg (hplain h rfl)
      obtain ⟨hdone, -⟩ := Store.Mirror.twins_carryOut p.keeper (m := m)
        (plainPlan_takePlan hleft) (p.handleWith r h w₁).2.2 y₁ halike₁ hlast
      obtain ⟨z, w₂, y₂, hs₂, ht₂, halike₂, hclock₂⟩ := hdone.split
      have hclock₂ : w₂.clock = w₁.clock := hclock₂
      rw [exec_withSession_found hs, exec_withSession_found ht, handleWith_on]
      dsimp only
      rw [hs₂, ht₂, ← hclock₂]
      cases z with
      | error c => exact ⟨rfl, ⟨y₂, rfl, halike₂⟩, rfl⟩
      | ok z =>
        cases z with
        | error e => exact ⟨rfl, ⟨y₂, rfl, halike₂⟩, rfl⟩
        | ok cookie => cases cookie <;> exact ⟨rfl, ⟨y₂, rfl, halike₂⟩, rfl⟩

/-- Serving a request. -/
theorem mirror_serve (hreg : p.registry = Graphql.portalRegistry)
    (m : s.Mirror t (p.keeper.ttl * 1000) last) {w : World σ} {y : τ}
    (halike : m.alike w.clock w.store y) (hlast : w.clock ≤ last) :
    m.Same w.clock ((p.serve s r).exec w) ((p.serve t r).exec (w.on y)) := by
  obtain ⟨x, w₁, y₁, hs, ht, halike₁, hclock⟩ :=
    (mirror_withSession (r := r) hreg m halike hlast).split
  rw [exec_serve, exec_serve, hs, ht, ← hclock]
  cases x <;> exact ⟨rfl, ⟨y₁, rfl, halike₁⟩, rfl⟩

/-! ## Runs -/

/-- What can be told of a request: the session that it is served with, and its response. -/
structure Exchange where
  session : Except Session.Crash (Except Session.StoreError Handle)
  response : Except Session.Crash Response

/-- What can be told of a request that comes to a world. -/
def exchange (p : Portal) (s : Store σ) (r : Request) (w : World σ) : Exchange :=
  ⟨(Storing.exec (p.keeper.resolve s r.cookieHeaders) w).1, ((p.serve s r).exec w).1⟩

/-- What can be told of the requests of a run, one after the other. -/
def transcript (p : Portal) (s : Store σ) (w : World σ) (es : List Event) : List Exchange :=
  (p.turns s w es).map fun turn => p.exchange s turn.1 turn.2

/-- How long the pauses of a run are, together. -/
def elapsed : List Event → Nat
  | [] => 0
  | .request _ :: es => elapsed es
  | .pause ms :: es => ms + elapsed es

/-- **Runs on stores that answer alike.** They have the same transcript, and leave worlds that
differ in nothing but the states of the stores. -/
theorem transcript_mirror (hreg : p.registry = Graphql.portalRegistry)
    (m : s.Mirror t (p.keeper.ttl * 1000) last) {w : World σ} {y : τ} (es : List Event)
    (halike : m.alike w.clock w.store y) (hlast : w.clock + elapsed es ≤ last) :
    p.transcript t (w.on y) es = p.transcript s w es ∧
      ∃ y₁, p.runOn t (w.on y) es = (p.runOn s w es).on y₁ := by
  induction es generalizing w y with
  | nil => exact ⟨rfl, y, rfl⟩
  | cons e es ih =>
    cases e with
    | pause ms =>
      have hlater : m.alike (w.clock + ms) w.store y := m.later (Nat.le_add_right _ _) halike
      refine ih (w := { w with clock := w.clock + ms }) hlater ?_
      rw [elapsed] at hlast
      show w.clock + ms + elapsed es ≤ last
      omega
    | request r =>
      rw [elapsed] at hlast
      have hnow : w.clock ≤ last := by omega
      obtain ⟨hfound, -⟩ :=
        Store.Mirror.twins_resolve (m := m) p.keeper r.cookieHeaders w y halike hnow
      obtain ⟨x, w₁, y₁, hs, ht, halike₁, hclock⟩ :=
        (mirror_serve (r := r) hreg m halike hnow).split
      obtain ⟨htranscript, y₂, hleft⟩ := ih halike₁ (by rwa [hclock])
      have hexchange : p.exchange t r (w.on y) = p.exchange s r w := by
        rw [exchange, exchange, hfound.result, hs, ht]
      constructor
      · show p.exchange t r (w.on y) :: p.transcript t ((p.serve t r).exec (w.on y)).2 es =
          p.exchange s r w :: p.transcript s ((p.serve s r).exec w).2 es
        rw [hexchange, hs, ht, htranscript]
      · refine ⟨y₂, ?_⟩
        show p.runOn t ((p.serve t r).exec (w.on y)).2 es =
            (p.runOn s ((p.serve s r).exec w).2 es).on y₂
        rw [hs, ht, hleft]

end Portal

end Intranet
