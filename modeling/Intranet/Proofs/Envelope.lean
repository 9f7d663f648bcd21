import Intranet.Proofs.Books
import Intranet.Rehearsal
import Intranet.Session.Memory

/-!
# What a GraphQL request is answered with

Whatever becomes of the root field, the answer is a JSON object with data or with a single error,
sent with status 200 and without a fault. Only an error of the root field names the field, and only
such an error is counted.

* `exec_execute_unread`, `exec_execute_unknown`, `exec_execute_field`, `exec_runField` — what is
  done for a document, from its text to its resolver;
* `failing`, `requestError`, `fieldError` — the objects that are answered, member by member;
* `Envelope` — the five ways in which a request can end;
* `envelope_execute`, `Envelope.whole`, `Envelope.counted_eq` — each request ends in one of them,
  and what the answer tells of it;
* `discreet_portalRegistry` — the resolvers of the portal leave the count of errors alone;
* `graphql_envelope` — the same through the whole pipeline, for any store, session and registry.
-/

namespace Intranet

open Intranet.Task (exec exec_bind)

/-! ## What finding and keeping a session writes down -/

/-- A ledger with more lines in its journal. -/
def Ledger.jot (lines : List Line) (l : Ledger) : Ledger :=
  { l with journal := l.journal ++ lines }

namespace Session

variable {σ : Type}

theorem ledger_start (k : Keeper) (w : World σ) :
    (Storing.exec k.start w).2.ledger = w.ledger := by
  rw [exec_start]
  cases expiry w.clock k.ttl <;> rfl

theorem ledger_load (s : Store σ) (id : Id) (w : World σ) :
    (Storing.exec (Storing.load s id) w).2.ledger = w.ledger := by
  rw [Storing.exec_load]
  cases w.outage w.storeCalls.length (.load id) <;> rfl

/-- Finding a session leaves lines in the journal at most. -/
theorem ledger_resolve (k : Keeper) (s : Store σ) (headers : List String) (w : World σ) :
    ∃ lines, (Storing.exec (k.resolve s headers) w).2.ledger = w.ledger.jot lines := by
  have hnone : w.ledger = w.ledger.jot [] := by
    rw [Ledger.jot, List.append_nil]
  cases hid : k.sessionId? headers with
  | none =>
    refine ⟨[], ?_⟩
    rw [exec_resolve_none hid, ledger_start]
    exact hnone
  | some id =>
    have hload := ledger_load s id w
    rw [exec_resolve_some hid]
    cases hl : Storing.exec (Storing.load s id) w with
    | mk x w₁ =>
      rw [hl] at hload
      cases x with
      | error c => exact ⟨[], hload.trans hnone⟩
      | ok y =>
        cases y with
        | error e => exact ⟨[], hload.trans hnone⟩
        | ok found =>
          cases found with
          | some record => exact ⟨[], hload.trans hnone⟩
          | none =>
            refine ⟨[⟨.debug, "Session " ++ id.text ++ " expired or unknown"⟩], ?_⟩
            dsimp only at hload ⊢
            rw [ledger_start, hload]
            rfl

/-- Carrying out a plan leaves nothing in the ledger. -/
theorem ledger_carryOut (k : Keeper) (s : Store σ) (plan : Plan) (w : World σ) :
    (Storing.exec (k.carryOut s plan) w).2.ledger = w.ledger := by
  -- a removal that goes before the rest of a plan
  have hremove : ∀ (id : Id) (left : Storing σ (Option String)) (w : World σ),
      (∀ v, (Storing.exec left v).2.ledger = v.ledger) →
      (Storing.exec (do Storing.remove s id; left) w).2.ledger = w.ledger := by
    intro id left w hleft
    rw [Storing.exec_bind, Storing.exec_remove]
    cases w.outage w.storeCalls.length (.remove id) with
    | some e => rfl
    | none => exact hleft _
  have hsave : ∀ (record : Record) (w : World σ),
      (Storing.exec (k.carryOut s (.save record none)) w).2.ledger = w.ledger := by
    intro record w
    simp only [Keeper.carryOut, Storing.exec_bind, Storing.exec_get]
    cases expiry w.clock k.ttl with
    | error c => rfl
    | ok t =>
      simp only [Storing.exec_orCrash_ok, Storing.exec_save, Storing.exec_pure]
      cases w.outage w.storeCalls.length (.save { record with expiresAt := t } (k.ttl * 1000)) with
      | some e => rfl
      | none => cases s.save w.clock { record with expiresAt := t } (k.ttl * 1000) w.store <;> rfl
  cases plan with
  | nothing => rfl
  | save record replaced =>
    cases replaced with
    | none => exact hsave record w
    | some old => exact hremove old (k.carryOut s (.save record none)) w (hsave record)
  | remove ids =>
    induction ids generalizing w with
    | nil => rfl
    | cons id rest ih =>
      have hplan : k.carryOut s (.remove (id :: rest)) =
          (do Storing.remove s id; k.carryOut s (.remove rest)) := by
        simp [Keeper.carryOut]
      rw [hplan]
      exact hremove id _ w ih

end Session

namespace Graphql

/-! ## From a document to its resolver -/

section Executing

variable {c : Collaborators} {registry : Registry} {asked : Asked} {scene : Scene}

/-- The scene once the operation has been written down. -/
def opened (asked : Asked) (root : RootField) (scene : Scene) : Scene :=
  Handling.withLedger scene
    (scene.ledger.write .debug ("GraphQL " ++ root.operation.typeName ++ "." ++
      root.name ++ " (operation " ++ asked.operationName.getD "anonymous" ++ ")"))

/-- The message for a field that is not registered. -/
def unknownField (root : RootField) : String :=
  "Cannot query field \"" ++ root.name ++ "\" on type \"" ++ root.operation.typeName ++ "\"."

theorem exec_reject (parent code message : String) (scene : Scene) :
    exec (reject parent code message) scene =
      (.ok (errorBody ⟨message, [], code⟩),
        Handling.withLedger scene
          (scene.ledger.write .debug
            (parent ++ " rejected with " ++ code ++ ": " ++ message))) := rfl

theorem exec_execute_unread {e : Problem}
    (he : parse asked.query (asked.given.getD []) = .error e) :
    exec (execute c registry asked) scene =
      exec (reject (parentType asked.query) e.code e.message) scene := by
  simp only [execute, he]

theorem exec_execute_unknown {root : RootField}
    (hr : parse asked.query (asked.given.getD []) = .ok root)
    (hf : registry.lookup root.operation root.name = none) :
    exec (execute c registry asked) scene =
      exec (reject (root.operation.typeName ++ "." ++ root.name) "GRAPHQL_VALIDATION_FAILED"
        (unknownField root)) (opened asked root scene) := by
  simp only [execute, hr, hf, exec_bind, Handling.exec_onLedger, Task.exec_write]
  rfl

theorem exec_execute_field {root : RootField} {field : Field}
    (hr : parse asked.query (asked.given.getD []) = .ok root)
    (hf : registry.lookup root.operation root.name = some field) :
    exec (execute c registry asked) scene =
      exec (settle root (runField c field root)) (opened asked root scene) := by
  simp only [execute, hr, hf, exec_bind, Handling.exec_onLedger, Task.exec_write]
  rfl

/-- A guard denies, or the resolver runs. -/
theorem exec_runField (c : Collaborators) (field : Field) (root : RootField) (scene : Scene) :
    exec (runField c field root) scene =
      match field.guard.check (some scene.session) with
      | .error denial =>
        (.error (.failed denial),
          Handling.withLedger scene (scene.ledger.count .countAuthDenied))
      | .ok who => exec (field.resolve c ⟨who, root.arguments⟩) scene := by
  cases hg : field.guard.check (some scene.session) with
  | error denial => exact Task.exec_bind_error (Handling.exec_guarded_error hg) _
  | ok who => exact Task.exec_bind_ok (Handling.exec_guarded_ok hg) _

end Executing

/-! ## Answers -/

/-- The answer with one error in place of data. -/
def failing (error : Json) : Json := .obj [("data", .null), ("errors", .arr [error])]

/-- An error of the whole request. -/
def requestError (code message : String) : Json :=
  .obj [("extensions", .obj [("code", .str code)]), ("message", .str message)]

/-- An error of the root field that is answered under a key. -/
def fieldError (code message key : String) : Json :=
  .obj [("extensions", .obj [("code", .str code)]), ("message", .str message),
    ("path", .arr [.str key])]

theorem failing_inj {e e' : Json} : failing e = failing e' ↔ e = e' := by
  simp [failing]

/-- An answer with data has no errors. -/
theorem failing_ne_data (error : Json) (members : Members) :
    failing error ≠ .obj [("data", .obj members)] := by
  simp [failing]

theorem path_requestError (code message : String) :
    (requestError code message).get? "path" = none := by
  simp [requestError, Json.get?, Members.get?]

theorem path_fieldError (code message key : String) :
    (fieldError code message key).get? "path" = some (.arr [.str key]) := by
  simp [fieldError, Json.get?, Members.get?]

/-! ## The ways in which a request can end -/

/-- How a request ends that was handled from `start` on: the scene as the root field left it, the
answer, and how many errors are counted for it. -/
inductive Envelope (c : Collaborators) (registry : Registry) (asked : Asked) (start : Scene) :
    Scene → Json → UInt64 → Prop where
  /-- The document cannot be read. -/
  | unread {e : Problem} (he : parse asked.query (asked.given.getD []) = .error e) :
    Envelope c registry asked start start (failing (requestError e.code e.message)) 0
  /-- There is no such field. -/
  | unknown {root : RootField} (hr : parse asked.query (asked.given.getD []) = .ok root)
    (hf : registry.lookup root.operation root.name = none) :
    Envelope c registry asked start start
      (failing (requestError "GRAPHQL_VALIDATION_FAILED" (unknownField root))) 0
  /-- The guard of the field denies. -/
  | denied {root : RootField} {field : Field} {denial : Failure}
    (hr : parse asked.query (asked.given.getD []) = .ok root)
    (hf : registry.lookup root.operation root.name = some field)
    (hg : field.guard.check (some start.session) = .error denial) :
    Envelope c registry asked start
      (Handling.withLedger start ((opened asked root start).ledger.count .countAuthDenied))
      (failing (fieldError denial.code denial.message (root.aliased.getD root.name))) 1
  /-- The resolver of the field fails. -/
  | failed {root : RootField} {field : Field} {who : Option Principal} {f : Failure} {left : Scene}
    (hr : parse asked.query (asked.given.getD []) = .ok root)
    (hf : registry.lookup root.operation root.name = some field)
    (hg : field.guard.check (some start.session) = .ok who)
    (hx : exec (field.resolve c ⟨who, root.arguments⟩) (opened asked root start) =
      (.error (.failed f), left)) :
    Envelope c registry asked start left
      (failing (fieldError f.code f.message (root.aliased.getD root.name))) 1
  /-- The resolver of the field gives a value, which is answered under the alias of the field or
  else its name. -/
  | answered {root : RootField} {field : Field} {who : Option Principal} {value : Json}
    {left : Scene} (hr : parse asked.query (asked.given.getD []) = .ok root)
    (hf : registry.lookup root.operation root.name = some field)
    (hg : field.guard.check (some start.session) = .ok who)
    (hx : exec (field.resolve c ⟨who, root.arguments⟩) (opened asked root start) =
      (.ok value, left)) :
    Envelope c registry asked start left
      (.obj [("data", .obj [(root.aliased.getD root.name, value)])]) 0

/-- No resolver has a part in what a request comes to: with any other collaborators, and any other
resolvers and guards under the same names, it comes to the same. -/
def Unresolved (registry : Registry) (asked : Asked) (scene : Scene) : Prop :=
  ∀ (c c' : Collaborators) (other : Registry),
    (∀ operation name, other.lookup operation name = none ↔
      registry.lookup operation name = none) →
      exec (execute c' other asked) scene = exec (execute c registry asked) scene

section Ending

variable {c : Collaborators} {registry : Registry} {asked : Asked} {start left : Scene}
  {answer : Json} {counted : UInt64}

/-- A failure of a root field is counted once as an error. -/
theorem graphqlErrors_record (f : Fault) (parentType field : String) (l : Ledger) :
    (f.record (.graphql parentType field) l).counters.graphqlErrors =
      l.counters.graphqlErrors + 1 := by
  rw [Fault.record]
  cases f.isAuthorization <;> rfl

/-- **Every request ends in one way.** Unless a resolver crashes there is an answer, and errors of
the root field are counted on top of what the resolver itself left. -/
theorem envelope_execute (c : Collaborators) (registry : Registry) (asked : Asked) (start : Scene)
    (hcalm : ∀ payload, (exec (execute c registry asked) start).1 ≠ .error (.crashed payload)) :
    ∃ left answer counted, Envelope c registry asked start left answer counted ∧
      (exec (execute c registry asked) start).1 = .ok answer ∧
      (exec (execute c registry asked) start).2.ledger.counters.graphqlErrors =
        left.ledger.counters.graphqlErrors + counted := by
  cases hr : parse asked.query (asked.given.getD []) with
  | error e =>
    rw [exec_execute_unread hr, exec_reject]
    exact ⟨_, _, _, .unread hr, rfl, (UInt64.add_zero _).symm⟩
  | ok root =>
    cases hf : registry.lookup root.operation root.name with
    | none =>
      rw [exec_execute_unknown hr hf, exec_reject]
      exact ⟨_, _, _, .unknown hr hf, rfl, (UInt64.add_zero _).symm⟩
    | some field =>
      rw [exec_execute_field hr hf, exec_settle, exec_runField] at hcalm ⊢
      have hsession : (opened asked root start).session = start.session := rfl
      rw [hsession] at hcalm ⊢
      cases hg : field.guard.check (some start.session) with
      | error denial =>
        refine ⟨_, _, _, .denied hr hf hg, rfl, ?_⟩
        exact graphqlErrors_record denial.fault root.operation.typeName root.name _
      | ok who =>
        rw [hg] at hcalm
        dsimp only at hcalm ⊢
        cases hx : exec (field.resolve c ⟨who, root.arguments⟩) (opened asked root start) with
        | mk x left =>
          rw [hx] at hcalm
          cases x with
          | ok value => exact ⟨_, _, _, .answered hr hf hg hx, rfl, (UInt64.add_zero _).symm⟩
          | error stop =>
            cases stop with
            | crashed payload => exact absurd rfl (hcalm payload)
            | failed f =>
              refine ⟨_, _, _, .failed hr hf hg hx, rfl, ?_⟩
              exact graphqlErrors_record f.fault root.operation.typeName root.name _

/-! ## What an answer tells -/

/-- An answer has data exactly if it has no error. -/
theorem Envelope.exclusive (h : Envelope c registry asked start left answer counted) :
    (∃ key value, answer = .obj [("data", .obj [(key, value)])]) ↔
      ¬∃ error, answer = failing error := by
  constructor
  · rintro ⟨key, value, rfl⟩ ⟨error, herror⟩
    exact failing_ne_data error _ herror.symm
  · intro hnone
    cases h with
    | unread he => exact absurd ⟨_, rfl⟩ hnone
    | unknown hr hf => exact absurd ⟨_, rfl⟩ hnone
    | denied hr hf hg => exact absurd ⟨_, rfl⟩ hnone
    | failed hr hf hg hx => exact absurd ⟨_, rfl⟩ hnone
    | answered hr hf hg hx => exact ⟨_, _, rfl⟩

/-- An error is counted exactly if it has a path, and then it is counted once. -/
theorem Envelope.counted_eq (h : Envelope c registry asked start left answer counted) :
    ((∃ error, answer = failing error ∧ error.get? "path" ≠ none) → counted = 1) ∧
      ((¬∃ error, answer = failing error ∧ error.get? "path" ≠ none) → counted = 0) := by
  have hrequest (code message : String) :
      ¬∃ error, failing (requestError code message) = failing error ∧
        error.get? "path" ≠ none := by
    rintro ⟨error, hsame, hpath⟩
    rw [← failing_inj.1 hsame] at hpath
    exact hpath (path_requestError code message)
  have hfield (code message key : String) :
      ∃ error, failing (fieldError code message key) = failing error ∧
        error.get? "path" ≠ none := by
    refine ⟨_, rfl, ?_⟩
    rw [path_fieldError]
    exact Option.some_ne_none _
  cases h with
  | unread he => exact ⟨fun hp => absurd hp (hrequest _ _), fun _ => rfl⟩
  | unknown hr hf => exact ⟨fun hp => absurd hp (hrequest _ _), fun _ => rfl⟩
  | denied hr hf hg => exact ⟨fun _ => rfl, fun hp => absurd (hfield _ _ _) hp⟩
  | failed hr hf hg hx => exact ⟨fun _ => rfl, fun hp => absurd (hfield _ _ _) hp⟩
  | answered hr hf hg hx =>
    refine ⟨?_, fun _ => rfl⟩
    rintro ⟨error, herror, -⟩
    exact absurd herror.symm (failing_ne_data error _)

theorem unresolved_of_unread {e : Problem}
    (he : parse asked.query (asked.given.getD []) = .error e) :
    Unresolved registry asked start := by
  intro c c' other _
  rw [exec_execute_unread he, exec_execute_unread he]

theorem unresolved_of_unknown {root : RootField}
    (hr : parse asked.query (asked.given.getD []) = .ok root)
    (hf : registry.lookup root.operation root.name = none) : Unresolved registry asked start := by
  intro c c' other hother
  rw [exec_execute_unknown hr hf, exec_execute_unknown hr ((hother _ _).2 hf)]

theorem Problem.code_mem (e : Problem) :
    e.code = "GRAPHQL_PARSE_FAILED" ∨ e.code = "GRAPHQL_VALIDATION_FAILED" := by
  cases e with
  | malformed m => exact .inl rfl
  | unsupported u => exact .inr rfl

/-- An error without a path is one of the whole request, and no resolver ran for it. -/
theorem Envelope.whole {error : Json}
    (h : Envelope c registry asked start left answer counted) (herror : answer = failing error)
    (hpath : error.get? "path" = none) :
    (∃ code message, error = requestError code message ∧
      (code = "GRAPHQL_PARSE_FAILED" ∨ code = "GRAPHQL_VALIDATION_FAILED")) ∧
      left = start ∧ Unresolved registry asked start := by
  have hfield (code message key : String) (hsame : fieldError code message key = error) :
      False := by
    rw [← hsame, path_fieldError] at hpath
    exact Option.some_ne_none _ hpath
  cases h with
  | unread hu =>
    exact ⟨⟨_, _, (failing_inj.1 herror).symm, Problem.code_mem _⟩, rfl, unresolved_of_unread hu⟩
  | unknown hr hf =>
    exact ⟨⟨_, _, (failing_inj.1 herror).symm, .inr rfl⟩, rfl, unresolved_of_unknown hr hf⟩
  | denied hr hf hg => exact (hfield _ _ _ (failing_inj.1 herror)).elim
  | failed hr hf hg hx => exact (hfield _ _ _ (failing_inj.1 herror)).elim
  | answered hr hf hg hx => exact absurd herror.symm (failing_ne_data error _)

/-- No resolver touches the count of errors itself. -/
def Registry.Discreet (registry : Registry) : Prop :=
  ∀ field ∈ registry.fields, ∀ c q scene,
    (exec (field.resolve c q) scene).2.ledger.counters.graphqlErrors =
      scene.ledger.counters.graphqlErrors

theorem Registry.Discreet.resolved (hquiet : registry.Discreet) {root : RootField} {field : Field}
    {q : Query} {x : Except Stop Json}
    (hf : registry.lookup root.operation root.name = some field)
    (hx : exec (field.resolve c q) (opened asked root start) = (x, left)) :
    left.ledger.counters.graphqlErrors = start.ledger.counters.graphqlErrors := by
  have hleft := hquiet field (List.mem_of_find?_eq_some hf) c q (opened asked root start)
  rw [hx] at hleft
  exact hleft

/-- With such resolvers errors are counted for the whole request alone. -/
theorem Envelope.discreet (h : Envelope c registry asked start left answer counted)
    (hquiet : registry.Discreet) :
    left.ledger.counters.graphqlErrors = start.ledger.counters.graphqlErrors := by
  cases h with
  | unread he => rfl
  | unknown hr hf => rfl
  | denied hr hf hg => rfl
  | failed hr hf hg hx => exact hquiet.resolved hf hx
  | answered hr hf hg hx => exact hquiet.resolved hf hx

end Ending

/-- The resolvers of the portal leave the count of errors alone. -/
theorem discreet_portalRegistry : portalRegistry.Discreet := by
  intro field hmem c q scene
  have hbooks := (bills_field (d := c.directory) (c := c) hmem q scene rfl).2.errors
  rw [hbooks]
  -- what a field may add to the books is a refusal of the gateway, which is no error
  split <;> exact UInt64.add_zero _

end Graphql

/-! ## Through the pipeline -/

namespace Portal

open Http (Request Response)
open Session (Store World Storing Handle)

variable {σ : Type} {p : Portal} {s : Store σ} {r : Request} {w w₁ w₂ : World σ} {h : Handle}

/-- A request that is posted to the endpoint is handled by it. -/
theorem exec_handle_graphql {asked : Graphql.Asked} (hpath : r.path = "/graphql")
    (hmethod : r.method = "POST") (hjson : r.json Graphql.Asked.decoder = .ok asked)
    (start : Scene) :
    exec (p.handle r) start =
      match exec (Graphql.execute p.collaborators p.registry asked) start with
      | (.ok answer, left) => (.ok (.json 200 answer), left)
      | (.error stop, left) => (.error stop, left) := by
  rw [exec_handle_posted hpath hmethod]
  simp only [Graphql.respond, hjson, exec_bind]
  cases exec (Graphql.execute p.collaborators p.registry asked) start with
  | mk x left => cases x <;> rfl

/-- The filter lets a response without a fault pass, and writes nothing down. -/
theorem filterHttp_faultless {response : Response} (hfault : response.fault = none)
    (loginPath method path : String) (l : Ledger) :
    filterHttp loginPath method path response l = (response, l) := by
  rw [filterHttp, hfault]

/-- A response without a fault leaves as it is, once the session is written back. -/
theorem exec_serve_faultless {cookie : Option String} {response : Response}
    (hfound : Storing.exec (p.keeper.resolve s r.cookieHeaders) w = (.ok (.ok h), w₁))
    (hhandled : (p.handleWith r h w₁).1 = response) (hfault : response.fault = none)
    (hkept : Storing.exec (p.keeper.carryOut s (p.handleWith r h w₁).2.1.takePlan.1)
      (p.handleWith r h w₁).2.2 = (.ok (.ok cookie), w₂)) :
    (p.serve s r).exec w = (.ok (finish r
      { response with
        headers := response.headers ++ cookie.toList.map fun c => ("set-cookie", c) }), w₂) := by
  rw [exec_serve, exec_withSession_found hfound, hkept, hhandled]
  cases cookie with
  | none =>
    dsimp only
    rw [filterHttp_faultless hfault, Option.toList_none, List.map_nil, List.append_nil]
  | some c =>
    have hsent : (response.withHeader "set-cookie" c).fault = none := hfault
    dsimp only
    rw [filterHttp_faultless hsent]
    rfl

theorem finish_graphql (hpath : r.path = "/graphql") (hmethod : r.method = "POST")
    (response : Response) : finish r response = response := by
  have hallowed : allowed? r = none := by
    simp [allowed?, hpath, hmethod, Route.ofPath?, Route.methods]
  simp [finish, hallowed, hmethod]

/-- What is true of the response to a request that was handled from `start` on: `left` is the scene
as the root field left it, `answer` the JSON that is sent, and `counted` the number of errors that
are counted for the request. -/
structure Enveloped (p : Portal) (asked : Graphql.Asked) (start : Scene) (before after : Counters)
    (response : Response) (left : Scene) (answer : Json) (counted : UInt64) : Prop where
  status : response.status = 200
  faultless : response.fault = none
  contentType : ("content-type", "application/json") ∈ response.headers
  body : response.body = Utf8.encode answer.text
  outcome : Graphql.Envelope p.collaborators p.registry asked start left answer counted
  /-- The answer has data or a single error, never both. -/
  exclusive : (∃ key value, answer = .obj [("data", .obj [(key, value)])]) ↔
    ¬∃ error, answer = Graphql.failing error
  /-- An error without a path is one of the whole request, and no resolver ran. -/
  whole : ∀ error, answer = Graphql.failing error → error.get? "path" = none →
    (∃ code message, error = Graphql.requestError code message ∧
      (code = "GRAPHQL_PARSE_FAILED" ∨ code = "GRAPHQL_VALIDATION_FAILED")) ∧
    left = start ∧ Graphql.Unresolved p.registry asked start
  /-- An error with a path is counted once. -/
  once : (∃ error, answer = Graphql.failing error ∧ error.get? "path" ≠ none) → counted = 1
  /-- Nothing else is counted. -/
  never : (¬∃ error, answer = Graphql.failing error ∧ error.get? "path" ≠ none) → counted = 0
  /-- Errors are counted on top of what the resolver itself left. -/
  errors : after.graphqlErrors = left.ledger.counters.graphqlErrors + counted
  /-- Resolvers that leave the count of errors alone, such as those of the portal, add nothing to
  it. -/
  growth : p.registry.Discreet → after.graphqlErrors = before.graphqlErrors + counted

/-- **The GraphQL envelope.** A request to the endpoint whose body can be read is answered with
status 200, JSON and no fault, whatever its session, the registered fields and their resolvers are,
as long as nothing crashes and the store takes every call. The answer is that of an `Envelope`:
data under the key of the field, or one error, that of the whole request without a path or that of
the field under its key. Errors of fields are counted once, and no others are. -/
theorem graphql_envelope {asked : Graphql.Asked} {cookie : Option String}
    (hpath : r.path = "/graphql") (hmethod : r.method = "POST")
    (hjson : r.json Graphql.Asked.decoder = .ok asked)
    (hfound : Storing.exec (p.keeper.resolve s r.cookieHeaders) w = (.ok (.ok h), w₁))
    (hcalm : ∀ payload, (exec (p.handle r) (scene h w₁)).1 ≠ .error (.crashed payload))
    (hkept : Storing.exec (p.keeper.carryOut s (p.handleWith r h w₁).2.1.takePlan.1)
      (p.handleWith r h w₁).2.2 = (.ok (.ok cookie), w₂)) :
    ∃ response left answer counted, (p.serve s r).exec w = (.ok response, w₂) ∧
      p.Enveloped asked (scene h w₁) w.ledger.counters w₂.ledger.counters response left answer
        counted := by
  have hhandle := exec_handle_graphql (p := p) hpath hmethod hjson (scene h w₁)
  have hquiet : ∀ payload, (exec (Graphql.execute p.collaborators p.registry asked)
      (scene h w₁)).1 ≠ .error (.crashed payload) := by
    intro payload hcrash
    refine hcalm payload ?_
    rw [hhandle]
    revert hcrash
    cases exec (Graphql.execute p.collaborators p.registry asked) (scene h w₁) with
    | mk x left =>
      rintro rfl
      rfl
  obtain ⟨left, answer, counted, henv, hanswer, herrors⟩ :=
    Graphql.envelope_execute p.collaborators p.registry asked (scene h w₁) hquiet
  cases hexec : exec (Graphql.execute p.collaborators p.registry asked) (scene h w₁) with
  | mk x after =>
    rw [hexec] at hanswer herrors hhandle
    obtain rfl : x = .ok answer := hanswer
    have hresponse : (p.handleWith r h w₁).1 = .json 200 answer := by
      rw [handleWith_eq, hhandle]
    have hledger : w₂.ledger = after.ledger := by
      have hsame := Session.ledger_carryOut p.keeper s (p.handleWith r h w₁).2.1.takePlan.1
        (p.handleWith r h w₁).2.2
      rw [hkept] at hsame
      rw [hsame, handleWith_eq, hhandle]
    have hcounted : w₂.ledger.counters.graphqlErrors =
        left.ledger.counters.graphqlErrors + counted := by
      rw [hledger]
      exact herrors
    have hserve := exec_serve_faultless hfound hresponse rfl hkept
    rw [finish_graphql hpath hmethod] at hserve
    refine ⟨_, left, answer, counted, hserve, ?_⟩
    refine ⟨rfl, rfl, ?_, rfl, henv, henv.exclusive, ?_, henv.counted_eq.1, henv.counted_eq.2,
      hcounted, ?_⟩
    · exact List.mem_append_left _ List.mem_cons_self
    · intro error herror hnone
      exact henv.whole herror hnone
    · intro hdiscreet
      obtain ⟨lines, hlines⟩ := Session.ledger_resolve p.keeper s r.cookieHeaders w
      rw [hfound] at hlines
      rw [hcounted, henv.discreet hdiscreet]
      show w₁.ledger.counters.graphqlErrors + counted = _
      rw [show w₁.ledger = w.ledger.jot lines from hlines]
      rfl

/-- The body of the response is the one that the handler gives. -/
theorem body_of_serve {cookie : Option String} {response : Response} (hpath : r.path = "/graphql")
    (hmethod : r.method = "POST")
    (hfound : Storing.exec (p.keeper.resolve s r.cookieHeaders) w = (.ok (.ok h), w₁))
    (hfault : (p.handleWith r h w₁).1.fault = none)
    (hkept : Storing.exec (p.keeper.carryOut s (p.handleWith r h w₁).2.1.takePlan.1)
      (p.handleWith r h w₁).2.2 = (.ok (.ok cookie), w₂))
    (hserve : (p.serve s r).exec w = (.ok response, w₂)) :
    response.body = (p.handleWith r h w₁).1.body := by
  rw [exec_serve_faultless hfound rfl hfault hkept, finish_graphql hpath hmethod] at hserve
  cases hserve
  rfl

/-- A session that has not been touched is not written back. -/
theorem exec_carryOut_untouched (k : Session.Keeper) (s : Store σ) {h : Handle}
    (hdestroyed : h.destroyed = false) (hchanged : h.changed = false) (w : World σ) :
    Storing.exec (k.carryOut s h.takePlan.1) w = (.ok (.ok none), w) := by
  have hplan : h.takePlan.1 = .nothing := by
    simp [Handle.takePlan, hdestroyed, hchanged]
  rw [hplan]
  rfl

/-- The rehearsal portal answers a request with a body and counts so many errors for it, where `h`
is the session of the request and `w₁` the world in which it is handled. -/
def RehearsalAnswers (r : Request) (w : World Session.Memory) (h : Handle)
    (w₁ : World Session.Memory) (body : String) (counted : UInt64) : Prop :=
  ∃ asked w₂ response left answer,
    (Rehearsal.portal.serve Session.Memory.store r).exec w = (.ok response, w₂) ∧
    Rehearsal.portal.Enveloped asked (scene h w₁) w.ledger.counters w₂.ledger.counters
      response left answer counted ∧
    response.body = Utf8.encode body

/-- A stranger is denied, under the alias of the field, and the error is counted. Someone who is
signed in reads who they are under the same alias, and nothing is counted. -/
theorem graphql_envelope_rehearsal :
    RehearsalAnswers Rehearsal.asksSelf (World.start Session.Memory.empty 0)
      Rehearsal.strangerSession Rehearsal.strangerWorld
      ("\x7b\"data\":null,\"errors\":[\x7b\"extensions\":\x7b\"code\":\"FORBIDDEN\"\x7d," ++
        "\"message\":\"Unauthorized\",\"path\":[\"self\"]\x7d]\x7d") 1 ∧
    RehearsalAnswers (Rehearsal.returning Rehearsal.asksSelf) Rehearsal.world
      (.ofRecord Rehearsal.record) (Rehearsal.world.announced (.load Rehearsal.record.id))
      ("\x7b\"data\":\x7b\"self\":\x7b\"displayName\":\"jdoe (test)\"," ++
        "\"id\":\"00000000-0000-4000-8000-000000000001\",\"isAdmin\":false," ++
        "\"login\":\"jdoe\"\x7d\x7d\x7d") 0 := by
  -- what is left to be evaluated is the handler, and how it leaves the session
  have hanswers (r : Request) (w w₁ : World Session.Memory) (h : Handle) (body : String)
      (counted : UInt64) (hpath : r.path = "/graphql") (hmethod : r.method = "POST")
      (hread : (r.json Graphql.Asked.decoder).toBool = true)
      (hfound : Storing.exec (Rehearsal.portal.keeper.resolve Session.Memory.store r.cookieHeaders)
        w = (.ok (.ok h), w₁))
      (hanswered : (exec (Rehearsal.portal.handle r) (scene h w₁)).1.toBool = true)
      (hhandled : let x := Rehearsal.portal.handleWith r h w₁
        x.1.fault = none ∧ x.1.body = Utf8.encode body ∧ x.2.1.destroyed = false ∧
          x.2.1.changed = false ∧
          x.2.2.ledger.counters.graphqlErrors = w.ledger.counters.graphqlErrors + counted) :
      RehearsalAnswers r w h w₁ body counted := by
    obtain ⟨hfault, hbody, hdestroyed, hchanged, hcounted⟩ := hhandled
    cases hjson : r.json Graphql.Asked.decoder with
    | error e =>
      rw [hjson] at hread
      cases hread
    | ok asked =>
      have hcalm : ∀ payload, (exec (Rehearsal.portal.handle r) (scene h w₁)).1 ≠
          .error (.crashed payload) := by
        intro payload hcrash
        rw [hcrash] at hanswered
        cases hanswered
      have hkept := exec_carryOut_untouched Rehearsal.portal.keeper Session.Memory.store hdestroyed
        hchanged (Rehearsal.portal.handleWith r h w₁).2.2
      obtain ⟨response, left, answer, n, hserve, henv⟩ :=
        graphql_envelope hpath hmethod hjson hfound hcalm hkept
      have hgrowth := henv.growth Graphql.discreet_portalRegistry
      rw [hcounted] at hgrowth
      obtain rfl : counted = n := by
        simpa using hgrowth
      refine ⟨asked, _, response, left, answer, hserve, henv, ?_⟩
      rw [body_of_serve hpath hmethod hfound hfault hkept hserve, hbody]
  refine ⟨hanswers _ _ _ _ _ _ rfl rfl (by decide +kernel) (resolve_stranger rfl)
    (by decide +kernel) (by decide +kernel), ?_⟩
  have hid :
      Rehearsal.portal.keeper.sessionId? (Rehearsal.returning Rehearsal.asksSelf).cookieHeaders =
        some Rehearsal.record.id := by decide +kernel
  exact hanswers _ _ _ _ _ _ rfl rfl (by decide +kernel) (resolve_rehearsal hid)
    (by decide +kernel) (by decide +kernel)

end Portal

end Intranet
