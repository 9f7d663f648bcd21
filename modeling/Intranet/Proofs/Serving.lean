import Intranet.Portal.Serve
import Intranet.Proofs.Deeds
import Intranet.Rehearsal

/-!
# Running the pipeline

What serving a request gives and leaves behind, phase by phase: the session is found, the handler
runs, the plan of the session is carried out, the filter looks at the response.

Main results: `exec_resolve_none` and `exec_resolve_some` (how a session is found), `resolve_ok`
(what was found: a new session, or a record of the store), `exec_withSession_found` and
`exec_serve` (all that follows), `exec_serve_kept` (a session that its handler leaves alone is not
written back), and `serve_deed` (only handlers call collaborators, and only as `Deed` allows).
-/

namespace Intranet

namespace Session

variable {σ α β : Type}

/-! ## Work on the world -/

/-- The result of work that may break down, and the world it leaves. -/
def Serving.exec (t : Serving σ α) (w : World σ) : Except Crash α × World σ := t.run.run w

/-- The result of work that the store may refuse, and the world it leaves. -/
def Storing.exec (t : Storing σ α) (w : World σ) :
    Except Crash (Except StoreError α) × World σ := t.run.run.run w

/-- A step, and what follows it unless the step breaks down. -/
theorem Serving.exec_bind (t : Serving σ α) (f : α → Serving σ β) (w : World σ) :
    Serving.exec (t >>= f) w =
      match Serving.exec t w with
      | (.ok a, w) => Serving.exec (f a) w
      | (.error c, w) => (.error c, w) := by
  show (ExceptT.bindCont f (t.run.run w).1).run (t.run.run w).2 = _
  cases h : t.run.run w with
  | mk x w₁ => cases x <;> simp [exec, h] <;> rfl

/-- A step, and what follows it unless the step is refused or breaks down. -/
theorem Storing.exec_bind (t : Storing σ α) (f : α → Storing σ β) (w : World σ) :
    Storing.exec (t >>= f) w =
      match Storing.exec t w with
      | (.ok (.ok a), w) => Storing.exec (f a) w
      | (.ok (.error e), w) => (.ok (.error e), w)
      | (.error c, w) => (.error c, w) := by
  show Serving.exec (t.run >>= ExceptT.bindCont f) w = _
  rw [Serving.exec_bind]
  have h : Serving.exec t.run w = Storing.exec t w := rfl
  rw [h]
  cases Storing.exec t w with
  | mk x w₁ =>
    cases x with
    | error c => rfl
    | ok y => cases y <;> rfl

namespace Serving

@[simp] theorem exec_run (t : Storing σ α) (w : World σ) :
    exec (ExceptT.run t) w = Storing.exec t w := rfl

@[simp] theorem exec_pure (a : α) (w : World σ) : exec (pure a) w = (.ok a, w) := rfl

@[simp] theorem exec_get (w : World σ) : exec (get : Serving σ (World σ)) w = (.ok w, w) := rfl

@[simp] theorem exec_set (w₁ w : World σ) :
    exec (set w₁ : Serving σ PUnit) w = (.ok ⟨⟩, w₁) := rfl

@[simp] theorem exec_modify (f : World σ → World σ) (w : World σ) :
    exec (modify f : Serving σ PUnit) w = (.ok ⟨⟩, f w) := rfl

end Serving

/-- The world after a call to the store was written down. -/
def World.announced (call : StoreCall) (w : World σ) : World σ :=
  { w with storeCalls := w.storeCalls ++ [call] }

namespace Storing

@[simp] theorem exec_pure (a : α) (w : World σ) : exec (pure a) w = (.ok (.ok a), w) := rfl

@[simp] theorem exec_throw (e : StoreError) (w : World σ) :
    exec (throw e : Storing σ α) w = (.ok (.error e), w) := rfl

@[simp] theorem exec_get (w : World σ) :
    exec (get : Storing σ (World σ)) w = (.ok (.ok w), w) := rfl

@[simp] theorem exec_set (w₁ w : World σ) :
    exec (set w₁ : Storing σ PUnit) w = (.ok (.ok ⟨⟩), w₁) := rfl

@[simp] theorem exec_modify (f : World σ → World σ) (w : World σ) :
    exec (modify f : Storing σ PUnit) w = (.ok (.ok ⟨⟩), f w) := rfl

@[simp] theorem exec_orCrash_ok (a : α) (w : World σ) :
    exec (orCrash (.ok a) : Storing σ α) w = (.ok (.ok a), w) := rfl

@[simp] theorem exec_orCrash_error (c : Crash) (w : World σ) :
    exec (orCrash (.error c) : Storing σ α) w = (.error c, w) := rfl

@[simp] theorem exec_write (level : Level) (text : String) (w : World σ) :
    exec (write level text) w = (.ok (.ok ()), { w with ledger := w.ledger.write level text }) :=
      rfl

/-- A call is written down, and an outage may refuse it. -/
theorem exec_announce (call : StoreCall) (w : World σ) :
    exec (announce call) w =
      (.ok (match w.outage w.storeCalls.length call with
        | some e => .error e
        | none => .ok ()), w.announced call) := by
  simp only [announce, exec_bind, exec_get, exec_set]
  cases w.outage w.storeCalls.length call <;> rfl

theorem exec_load (s : Store σ) (id : Id) (w : World σ) :
    exec (load s id) w =
      match w.outage w.storeCalls.length (.load id) with
      | some e => (.ok (.error e), w.announced (.load id))
      | none =>
        (.ok (s.load w.clock id w.store).1,
          { w.announced (.load id) with store := (s.load w.clock id w.store).2 }) := by
  simp only [load, exec_bind, exec_announce]
  cases w.outage w.storeCalls.length (.load id) with
  | some e => rfl
  | none =>
    cases hs : (s.load w.clock id w.store).1 <;>
      simp only [exec_get, exec_set, World.announced, hs, exec_pure, exec_throw]

theorem exec_save (s : Store σ) (record : Record) (ttl : Nat) (w : World σ) :
    exec (save s record ttl) w =
      match w.outage w.storeCalls.length (.save record ttl) with
      | some e => (.ok (.error e), w.announced (.save record ttl))
      | none =>
        match s.save w.clock record ttl w.store with
        | .error c => (.error c, w.announced (.save record ttl))
        | .ok store => (.ok (.ok ()), { w.announced (.save record ttl) with store := store }) := by
  simp only [save, exec_bind, exec_announce]
  cases w.outage w.storeCalls.length (.save record ttl) with
  | some e => rfl
  | none =>
    cases hs : s.save w.clock record ttl w.store <;>
      simp only [exec_get, exec_set, World.announced, hs, exec_orCrash_ok, exec_orCrash_error]

theorem exec_remove (s : Store σ) (id : Id) (w : World σ) :
    exec (remove s id) w =
      match w.outage w.storeCalls.length (.remove id) with
      | some e => (.ok (.error e), w.announced (.remove id))
      | none =>
        (.ok (.ok ()), { w.announced (.remove id) with store := s.remove id w.store }) := by
  simp only [remove, exec_bind, exec_announce]
  cases w.outage w.storeCalls.length (.remove id) <;> rfl

end Storing

/-! ## Finding a session -/

theorem exec_start (k : Keeper) (w : World σ) :
    Storing.exec k.start w =
      match expiry w.clock k.ttl with
      | .error c => (.error c, w)
      | .ok t => (.ok (.ok (.fresh (k.ids w.drawn) t)), { w with drawn := w.drawn + 1 }) := by
  simp only [Keeper.start, Storing.exec_bind, Storing.exec_get]
  cases expiry w.clock k.ttl <;> rfl

/-- Without a cookie a session is started. -/
theorem exec_resolve_none {k : Keeper} {headers : List String} (h : k.sessionId? headers = none)
    (s : Store σ) (w : World σ) :
    Storing.exec (k.resolve s headers) w = Storing.exec k.start w := by
  simp only [Keeper.resolve, h]

/-- With a cookie the store is asked; a session that it does not know is started anew. -/
theorem exec_resolve_some {k : Keeper} {headers : List String} {id : Id}
    (h : k.sessionId? headers = some id) (s : Store σ) (w : World σ) :
    Storing.exec (k.resolve s headers) w =
      match Storing.exec (Storing.load s id) w with
      | (.error c, w) => (.error c, w)
      | (.ok (.error e), w) => (.ok (.error e), w)
      | (.ok (.ok (some record)), w) => (.ok (.ok (.ofRecord record)), w)
      | (.ok (.ok none), w) =>
        Storing.exec k.start
          { w with
            ledger :=
              w.ledger.write .debug ("Session " ++ id.text ++ " expired or unknown") } := by
  simp only [Keeper.resolve, h, Storing.exec_bind]
  cases Storing.exec (Storing.load s id) w with
  | mk x w₁ =>
    cases x with
    | error c => rfl
    | ok y =>
      cases y with
      | error e => rfl
      | ok found => cases found <;> rfl

/-- What was found is a new session, or the record that the store has under the identifier of the
cookie. -/
theorem resolve_ok {k : Keeper} {s : Store σ} {headers : List String} {w w₁ : World σ} {h : Handle}
    (hf : Storing.exec (k.resolve s headers) w = (.ok (.ok h), w₁)) :
    (∃ id t, h = .fresh id t) ∨
      ∃ id record, k.sessionId? headers = some id ∧
        (s.load w.clock id w.store).1 = .ok (some record) ∧ h = .ofRecord record := by
  have hstart {v : World σ} (hs : Storing.exec k.start v = (.ok (.ok h), w₁)) :
      ∃ id t, h = .fresh id t := by
    rw [exec_start] at hs
    cases he : expiry v.clock k.ttl with
    | error c => rw [he] at hs; cases hs
    | ok t => rw [he] at hs; cases hs; exact ⟨_, t, rfl⟩
  cases hid : k.sessionId? headers with
  | none =>
    rw [exec_resolve_none hid] at hf
    exact .inl (hstart hf)
  | some id =>
    rw [exec_resolve_some hid, Storing.exec_load] at hf
    cases ho : w.outage w.storeCalls.length (.load id) with
    | some e => simp only [ho] at hf; cases hf
    | none =>
      cases hl : (s.load w.clock id w.store).1 with
      | error e => simp only [ho, hl] at hf; cases hf
      | ok found =>
        cases found with
        | none => simp only [ho, hl] at hf; exact .inl (hstart hf)
        | some record =>
          simp only [ho, hl] at hf
          cases hf
          exact .inr ⟨id, record, rfl, hl, rfl⟩

/-- Nothing has to be written back of a session that was just found. -/
theorem takePlan_of_resolve {k : Keeper} {s : Store σ} {headers : List String} {w w₁ : World σ}
    {h : Handle} (hf : Storing.exec (k.resolve s headers) w = (.ok (.ok h), w₁)) :
    h.takePlan.1 = .nothing := by
  obtain ⟨id, t, rfl⟩ | ⟨id, record, -, -, rfl⟩ := resolve_ok hf <;> rfl

/-- The request with these cookies has the session `h` in a world, once it is found or started. -/
def Finds (k : Keeper) (s : Store σ) (headers : List String) (w : World σ) (h : Handle) : Prop :=
  ∃ w₁, Storing.exec (k.resolve s headers) w = (.ok (.ok h), w₁)

/-! ## Only handlers call collaborators -/

/-- From `w` to `w₁` the clock stands still, outages stay what they are, and no identifier that was
drawn is forgotten. -/
structure World.Onward (w w₁ : World σ) : Prop where
  clock : w₁.clock = w.clock
  outage : w₁.outage = w.outage
  drawn : w.drawn ≤ w₁.drawn

theorem World.Onward.trans {w w₁ w₂ : World σ} (h₁ : w.Onward w₁) (h₂ : w₁.Onward w₂) :
    w.Onward w₂ where
  clock := h₂.clock.trans h₁.clock
  outage := h₂.outage.trans h₁.outage
  drawn := Nat.le_trans h₁.drawn h₂.drawn

/-- Besides, no collaborator was called. -/
structure World.Steady (w w₁ : World σ) : Prop extends World.Onward w w₁ where
  calls : w₁.ledger.calls = w.ledger.calls

theorem World.Steady.refl (w : World σ) : w.Steady w := ⟨⟨rfl, rfl, Nat.le_refl _⟩, rfl⟩

theorem World.Steady.trans {w w₁ w₂ : World σ} (h₁ : w.Steady w₁) (h₂ : w₁.Steady w₂) :
    w.Steady w₂ :=
  ⟨h₁.toOnward.trans h₂.toOnward, h₂.calls.trans h₁.calls⟩

/-- Work with the store that calls no collaborator. -/
def Storing.Quiet (t : Storing σ α) : Prop := ∀ w : World σ, w.Steady (Storing.exec t w).2

namespace Storing

theorem quiet_pure (a : α) : Quiet (pure a : Storing σ α) := World.Steady.refl

theorem quiet_get : Quiet (get : Storing σ (World σ)) := World.Steady.refl

theorem quiet_write (level : Level) (text : String) : Quiet (σ := σ) (write level text) :=
  fun _ => ⟨⟨rfl, rfl, Nat.le_refl _⟩, rfl⟩

theorem quiet_orCrash (x : Except Crash α) : Quiet (orCrash x : Storing σ α) := by
  intro w
  cases x <;> exact .refl w

theorem quiet_bind {t : Storing σ α} {f : α → Storing σ β} (ht : Quiet t) (hf : ∀ a, Quiet (f a)) :
    Quiet (t >>= f) := by
  intro w
  have hw := ht w
  rw [exec_bind]
  cases he : exec t w with
  | mk x w₁ =>
    rw [he] at hw
    cases x with
    | error c => exact hw
    | ok y =>
      cases y with
      | error e => exact hw
      | ok a => exact hw.trans (hf a w₁)

theorem quiet_load (s : Store σ) (id : Id) : Quiet (load s id) := by
  intro w
  rw [exec_load]
  cases w.outage w.storeCalls.length (.load id) <;> exact ⟨⟨rfl, rfl, Nat.le_refl _⟩, rfl⟩

theorem quiet_save (s : Store σ) (record : Record) (ttl : Nat) : Quiet (save s record ttl) := by
  intro w
  rw [exec_save]
  cases w.outage w.storeCalls.length (.save record ttl) with
  | some e => exact ⟨⟨rfl, rfl, Nat.le_refl _⟩, rfl⟩
  | none => cases s.save w.clock record ttl w.store <;> exact ⟨⟨rfl, rfl, Nat.le_refl _⟩, rfl⟩

theorem quiet_remove (s : Store σ) (id : Id) : Quiet (remove s id) := by
  intro w
  rw [exec_remove]
  cases w.outage w.storeCalls.length (.remove id) <;> exact ⟨⟨rfl, rfl, Nat.le_refl _⟩, rfl⟩

theorem quiet_forIn {ids : List Id} {f : Id → Storing σ Unit} (hf : ∀ id, Quiet (f id)) :
    Quiet (forIn ids PUnit.unit fun id _ => do f id; pure (ForInStep.yield PUnit.unit)) := by
  induction ids with
  | nil => exact quiet_pure _
  | cons id rest ih =>
    rw [List.forIn_cons]
    refine quiet_bind (quiet_bind (hf id) fun _ => quiet_pure _) fun step => ?_
    cases step with
    | done b => exact quiet_pure _
    | yield b => exact ih

end Storing

theorem quiet_start (k : Keeper) : Storing.Quiet (σ := σ) k.start := by
  intro w
  rw [exec_start]
  cases expiry w.clock k.ttl with
  | error c => exact .refl w
  | ok t => exact ⟨⟨rfl, rfl, Nat.le_succ _⟩, rfl⟩

theorem quiet_resolve (k : Keeper) (s : Store σ) (headers : List String) :
    Storing.Quiet (k.resolve s headers) := by
  rw [Keeper.resolve]
  split
  · exact quiet_start k
  · refine Storing.quiet_bind (Storing.quiet_load s _) fun found => ?_
    cases found with
    | some record => exact Storing.quiet_pure _
    | none => exact Storing.quiet_bind (Storing.quiet_write _ _) fun _ => quiet_start k

theorem quiet_carryOut (k : Keeper) (s : Store σ) (plan : Plan) :
    Storing.Quiet (k.carryOut s plan) := by
  cases plan with
  | nothing => exact Storing.quiet_pure _
  | save record replaced =>
    have hrest : Storing.Quiet (σ := σ) (do
        let expiresAt ← Storing.orCrash (expiry (← get).clock k.ttl)
        Storing.save s { record with expiresAt := expiresAt } (k.ttl * 1000)
        pure (some (k.sessionCookie record.id))) :=
      Storing.quiet_bind Storing.quiet_get fun _ =>
        Storing.quiet_bind (Storing.quiet_orCrash _) fun _ =>
          Storing.quiet_bind (Storing.quiet_save s _ _) fun _ => Storing.quiet_pure _
    cases replaced with
    | none => exact hrest
    | some old => exact Storing.quiet_bind (Storing.quiet_remove s old) fun _ => hrest
  | remove ids =>
    exact Storing.quiet_bind (Storing.quiet_forIn fun id => Storing.quiet_remove s id)
      fun _ => Storing.quiet_pure _

end Session

/-! ## Serving -/

namespace Portal

open Http (Request Response)
open Session (Store World Serving Storing Handle Finds)
open Intranet.Session.Serving (exec_bind)

variable {σ : Type} {p : Portal} {s : Store σ} {r : Request} {w w₁ : World σ} {h : Handle}

/-- The scene on which a request is handled. -/
def scene (h : Handle) (w : World σ) : Scene := ⟨w.ledger, h, w.drawn⟩

/-- What the handler of a request gives and leaves behind. -/
theorem handleWith_eq (p : Portal) (r : Request) (h : Handle) (w : World σ) :
    p.handleWith r h w =
      (match (Task.exec (p.handle r) (scene h w)).1 with
        | .ok response => response
        | .error stop => .ofStop (slip r w) stop,
        (Task.exec (p.handle r) (scene h w)).2.session,
        { w with
          ledger := (Task.exec (p.handle r) (scene h w)).2.ledger
          drawn := (Task.exec (p.handle r) (scene h w)).2.drawn }) := rfl

theorem exec_storeFailed (r : Request) (text : String) (f : Failure) (w : World σ) :
    (storeFailed r text f).exec w =
      (.ok (.ofFailure (slip r w) f), { w with ledger := w.ledger.write .error text }) := rfl

/-- Once the session is found, the handler runs and the plan of the session is carried out. -/
theorem exec_withSession_found
    (hf : Storing.exec (p.keeper.resolve s r.cookieHeaders) w = (.ok (.ok h), w₁)) :
    (p.withSession s r).exec w =
      match Storing.exec (p.keeper.carryOut s (p.handleWith r h w₁).2.1.takePlan.1)
          (p.handleWith r h w₁).2.2 with
      | (.error c, w) => (.error c, w)
      | (.ok (.error e), w) =>
        (storeFailed r ("Failed to persist session: " ++ e.message) e.failure).exec w
      | (.ok (.ok none), w) => (.ok (p.handleWith r h w₁).1, w)
      | (.ok (.ok (some cookie)), w) =>
        (.ok ((p.handleWith r h w₁).1.withHeader "set-cookie" cookie), w) := by
  simp only [withSession, exec_bind, Serving.exec_run, hf, Serving.exec_get, Serving.exec_set]
  cases Storing.exec (p.keeper.carryOut s (p.handleWith r h w₁).2.1.takePlan.1)
      (p.handleWith r h w₁).2.2 with
  | mk x w₂ =>
    cases x with
    | error c => rfl
    | ok y =>
      cases y with
      | error e => rfl
      | ok cookie => cases cookie <;> rfl

/-- When the store refuses to look for the session, no handler runs. -/
theorem exec_withSession_refused {e : Session.StoreError}
    (hf : Storing.exec (p.keeper.resolve s r.cookieHeaders) w = (.ok (.error e), w₁)) :
    (p.withSession s r).exec w =
      (storeFailed r ("Failed to resolve session: " ++ e.message)
        (.unavailable "Session store unavailable")).exec w₁ := by
  simp only [withSession, exec_bind, Serving.exec_run, hf]

theorem exec_withSession_crashed {c : Session.Crash}
    (hf : Storing.exec (p.keeper.resolve s r.cookieHeaders) w = (.error c, w₁)) :
    (p.withSession s r).exec w = (.error c, w₁) := by
  simp only [withSession, exec_bind, Serving.exec_run, hf]

/-- The filter looks at the response last. -/
theorem exec_serve (p : Portal) (s : Store σ) (r : Request) (w : World σ) :
    (p.serve s r).exec w =
      match (p.withSession s r).exec w with
      | (.error c, w) => (.error c, w)
      | (.ok inner, w) =>
        (.ok (finish r (filterHttp p.loginPath r.method r.path inner w.ledger).1),
          { w with ledger := (filterHttp p.loginPath r.method r.path inner w.ledger).2 }) := by
  simp only [serve, exec_bind]
  cases (p.withSession s r).exec w with
  | mk x w₁ => cases x <;> rfl

/-- When the handler leaves the session alone, the response of the handler goes through the filter,
and the store is not called again. -/
theorem exec_serve_kept
    (hf : Storing.exec (p.keeper.resolve s r.cookieHeaders) w = (.ok (.ok h), w₁))
    (hkeep : (Task.exec (p.handle r) (scene h w₁)).2.session = h) :
    (p.serve s r).exec w =
      (.ok (finish r (filterHttp p.loginPath r.method r.path (p.handleWith r h w₁).1
          (p.handleWith r h w₁).2.2.ledger).1),
        { (p.handleWith r h w₁).2.2 with
          ledger := (filterHttp p.loginPath r.method r.path (p.handleWith r h w₁).1
            (p.handleWith r h w₁).2.2.ledger).2 }) := by
  have hsession : (p.handleWith r h w₁).2.1 = h := hkeep
  rw [exec_serve, exec_withSession_found hf, hsession, Session.takePlan_of_resolve hf]
  rfl

theorem calls_filterHttp (loginPath method path : String) (inner : Response) (l : Ledger) :
    (filterHttp loginPath method path inner l).2.calls = l.calls := by
  rw [filterHttp]
  cases inner.fault with
  | none => rfl
  | some f => exact Fault.calls_record f _ l

/-- Serving calls only whom the work within calls. -/
theorem calls_serve (p : Portal) (s : Store σ) (r : Request) (w : World σ) :
    ((p.serve s r).exec w).2.ledger.calls = ((p.withSession s r).exec w).2.ledger.calls := by
  rw [exec_serve]
  cases (p.withSession s r).exec w with
  | mk x w₁ =>
    cases x with
    | error c => rfl
    | ok inner => exact calls_filterHttp ..

/-- Once the session is found, the calls of a request are those of its handler. -/
theorem calls_serve_found
    (hf : Storing.exec (p.keeper.resolve s r.cookieHeaders) w = (.ok (.ok h), w₁)) :
    ((p.serve s r).exec w).2.ledger.calls =
      (Task.exec (p.handle r) (scene h w₁)).2.ledger.calls := by
  have hquiet := Session.quiet_carryOut p.keeper s (p.handleWith r h w₁).2.1.takePlan.1
    (p.handleWith r h w₁).2.2
  rw [calls_serve, exec_withSession_found hf]
  revert hquiet
  cases Storing.exec (p.keeper.carryOut s (p.handleWith r h w₁).2.1.takePlan.1)
      (p.handleWith r h w₁).2.2 with
  | mk x w₂ =>
    intro hquiet
    cases x with
    | error c => exact hquiet.calls
    | ok y =>
      cases y with
      | error e => exact hquiet.calls
      | ok cookie => cases cookie <;> exact hquiet.calls

/-- Handling a request draws at most one identifier. -/
theorem drawn_handle (hreg : p.registry = Graphql.portalRegistry) (scene : Scene) :
    scene.drawn ≤ (Task.exec (p.handle r) scene).2.drawn ∧
      (Task.exec (p.handle r) scene).2.drawn ≤ scene.drawn + 1 := by
  cases hin : p.signsIn? scene.ledger.directoryCalls r with
  | some found =>
    obtain ⟨user, password⟩ := found
    obtain ⟨login, hexec⟩ := handle_signIn hin
    rw [hexec]
    exact ⟨Nat.le_succ _, Nat.le_refl _⟩
  | none =>
    by_cases hout : SignsOut r
    · obtain ⟨l, -, hexec⟩ := handle_signOut (p := p) (s := scene) hout
      rw [hexec]
      exact ⟨Nat.le_refl _, Nat.le_succ _⟩
    · have hdrawn := (handle_other hreg hin hout).2.1
      rw [hdrawn]
      exact ⟨Nat.le_refl _, Nat.le_succ _⟩

/-- While a request is served the clock stands still and no identifier is drawn twice. -/
theorem onward_serve (hreg : p.registry = Graphql.portalRegistry) (s : Store σ) (r : Request)
    (w : World σ) : w.Onward ((p.serve s r).exec w).2 := by
  have hinner : w.Onward ((p.withSession s r).exec w).2 := by
    have hfound := (Session.quiet_resolve p.keeper s r.cookieHeaders w).toOnward
    cases hf : Storing.exec (p.keeper.resolve s r.cookieHeaders) w with
    | mk x w₁ =>
      rw [hf] at hfound
      cases x with
      | error c => rw [exec_withSession_crashed hf]; exact hfound
      | ok y =>
        cases y with
        | error e =>
          rw [exec_withSession_refused hf]; exact ⟨hfound.clock, hfound.outage, hfound.drawn⟩
        | ok h =>
          have hhandled : w₁.Onward (p.handleWith r h w₁).2.2 :=
            ⟨rfl, rfl, (drawn_handle hreg (scene h w₁)).1⟩
          have hdone := (Session.quiet_carryOut p.keeper s (p.handleWith r h w₁).2.1.takePlan.1
            (p.handleWith r h w₁).2.2).toOnward
          have hall := (hfound.trans hhandled).trans hdone
          rw [exec_withSession_found hf]
          revert hall
          cases Storing.exec (p.keeper.carryOut s (p.handleWith r h w₁).2.1.takePlan.1)
              (p.handleWith r h w₁).2.2 with
          | mk x w₂ =>
            intro hall
            cases x with
            | error c => exact hall
            | ok y =>
              cases y with
              | error e => exact ⟨hall.clock, hall.outage, hall.drawn⟩
              | ok cookie => cases cookie <;> exact hall
  rw [exec_serve]
  revert hinner
  cases (p.withSession s r).exec w with
  | mk x w₁ =>
    intro hinner
    cases x with
    | error c => exact hinner
    | ok inner => exact ⟨hinner.clock, hinner.outage, hinner.drawn⟩

/-- **The calls of a request.** Serving it makes calls only once its session is found, and then
those that its handler may make. -/
theorem serve_deed (hreg : p.registry = Graphql.portalRegistry) (s : Store σ) (r : Request)
    (w : World σ) :
    ∃ c, ((p.serve s r).exec w).2.ledger.calls = w.ledger.calls ++ c ∧
      (c = .none ∨ ∃ h, Finds p.keeper s r.cookieHeaders w h ∧ Deed r h c) := by
  have hquiet := Session.quiet_resolve p.keeper s r.cookieHeaders w
  cases hf : Storing.exec (p.keeper.resolve s r.cookieHeaders) w with
  | mk x w₁ =>
    rw [hf] at hquiet
    cases x with
    | error c =>
      refine ⟨.none, ?_, .inl rfl⟩
      rw [calls_serve, exec_withSession_crashed hf, Calls.append_none]
      exact hquiet.calls
    | ok y =>
      cases y with
      | error e =>
        refine ⟨.none, ?_, .inl rfl⟩
        rw [calls_serve, exec_withSession_refused hf, exec_storeFailed, Calls.append_none]
        exact hquiet.calls
      | ok h =>
        obtain ⟨c, hc, hdeed⟩ := handle_deed (r := r) (s := scene h w₁) hreg
        exact ⟨c, by rw [calls_serve_found hf, hc]; exact congrArg (· ++ c) hquiet.calls,
          .inr ⟨h, ⟨w₁, hf⟩, hdeed⟩⟩

/-- At the rehearsal portal a session is started for a request that presents none. -/
theorem resolve_stranger {headers : List String}
    (hid : Rehearsal.portal.keeper.sessionId? headers = none) :
    Storing.exec (Rehearsal.portal.keeper.resolve Session.Memory.store headers)
      (World.start .empty 0) = (.ok (.ok Rehearsal.strangerSession), Rehearsal.strangerWorld) := by
  rw [Session.exec_resolve_none hid]
  rfl

/-- The session of the rehearsal is found for a request that presents its identifier. -/
theorem resolve_rehearsal {headers : List String}
    (hid : Rehearsal.portal.keeper.sessionId? headers = some Rehearsal.record.id) :
    Storing.exec (Rehearsal.portal.keeper.resolve Session.Memory.store headers) Rehearsal.world =
      (.ok (.ok (.ofRecord Rehearsal.record)),
        Rehearsal.world.announced (.load Rehearsal.record.id)) := by
  rw [Session.exec_resolve_some hid]
  rfl

end Portal

end Intranet
