import Intranet.Proofs.Serving

/-!
# Keeping the books

The counters of a ledger on one side, the calls it holds and the events of the work on the other.
Four counters are those of calls, and agree with the list of calls at any time. The other four
count events that leave no call, and grow by as many as there were.

* `Ledger.Even` — the counters of calls agree with the calls;
* `Growth`, `Books` — by how much the other counters grow while the ledger stays even;
* `Bills` — the same for work of a handler, with rules that follow its steps;
* `books_handle` — what handling a request adds to the books, for each request.
-/

namespace Intranet

open Intranet.Task (exec exec_bind)

/-! ## Counters and calls -/

/-- What the directory said to each question about a password among the calls to it, where
`earlier` were the calls before. -/
def Directory.verdicts (d : Directory) (earlier : List DirectoryCall) :
    List DirectoryCall → List (Except Stop (Option Principal))
  | [] => []
  | .authenticate login password :: rest =>
    d earlier (.authenticate login password) ::
      verdicts d (earlier ++ [.authenticate login password]) rest
  | .profile login :: rest => verdicts d (earlier ++ [.profile login]) rest

/-- The directory knows the person. -/
def knows : Except Stop (Option Principal) → Bool
  | .ok (some _) => true
  | _ => false

/-- The directory knows nobody of that login and password. -/
def rejects : Except Stop (Option Principal) → Bool
  | .ok none => true
  | _ => false

theorem Directory.verdicts_append (d : Directory) (earlier calls more : List DirectoryCall) :
    d.verdicts earlier (calls ++ more) =
      d.verdicts earlier calls ++ d.verdicts (earlier ++ calls) more := by
  induction calls generalizing earlier with
  | nil => simp [verdicts]
  | cons call calls ih =>
    cases call <;> simp [verdicts, ih]

/-- There are no more verdicts than calls. -/
theorem Directory.length_verdicts_le (d : Directory) (earlier calls : List DirectoryCall) :
    (d.verdicts earlier calls).length ≤ calls.length := by
  induction calls generalizing earlier with
  | nil => exact Nat.le_refl 0
  | cons call calls ih =>
    cases call with
    | authenticate login password => exact Nat.succ_le_succ (ih _)
    | profile login => exact Nat.le_succ_of_le (ih _)

/-- The counters of calls agree with the calls. -/
structure Ledger.Even (d : Directory) (l : Ledger) : Prop where
  fileOps : l.counters.fileOps = .ofNat l.documentCalls.length
  syncTriggered : l.counters.syncTriggered = .ofNat l.syncCalls.length
  loginsSucceeded :
    l.counters.loginsSucceeded = .ofNat ((d.verdicts [] l.directoryCalls).countP knows)
  loginsFailed :
    l.counters.loginsFailed = .ofNat ((d.verdicts [] l.directoryCalls).countP rejects)

theorem even_empty (d : Directory) : Ledger.empty.Even d := ⟨rfl, rfl, rfl, rfl⟩

/-! ## Growth -/

/-- How often something happened that leaves no call. -/
structure Growth where
  /-- A guard denied. -/
  denied : Nat
  /-- The document gateway refused. -/
  refused : Nat
  /-- A root field became an error. -/
  errors : Nat
  /-- A fault that is no denial reached the filter. -/
  faults : Nat

namespace Growth

/-- Nothing happened. -/
def none : Growth := ⟨0, 0, 0, 0⟩

/-- What happened in one stretch of work and then in another. -/
def add (g g' : Growth) : Growth :=
  ⟨g.denied + g'.denied, g.refused + g'.refused, g.errors + g'.errors, g.faults + g'.faults⟩

instance : Add Growth := ⟨add⟩

@[simp] theorem add_none (g : Growth) : g + none = g := rfl

@[simp] theorem none_add (g : Growth) : none + g = g := by
  show add none g = g
  simp [add, none]

end Growth

/-- From `l` to `l₁` the counters of events grow by `g`, and the counters of calls still agree with
the calls. -/
structure Books (d : Directory) (g : Growth) (l l₁ : Ledger) : Prop where
  denied : l₁.counters.authDenied = l.counters.authDenied + .ofNat g.denied
  refused : l₁.counters.fileDenied = l.counters.fileDenied + .ofNat g.refused
  errors : l₁.counters.graphqlErrors = l.counters.graphqlErrors + .ofNat g.errors
  faults : l₁.counters.faults = l.counters.faults + .ofNat g.faults
  even : l.Even d → l₁.Even d

section Ledgers

variable {d : Directory} {g g' : Growth} {l l₁ l₂ : Ledger}

/-- Two ledgers that differ in their journal at most. -/
theorem books_same (hcounters : l₁.counters = l.counters) (hcalls : l₁.calls = l.calls) :
    Books d .none l l₁ := by
  obtain ⟨c, journal, documents, directory, sync⟩ := l
  obtain ⟨c₁, journal₁, documents₁, directory₁, sync₁⟩ := l₁
  obtain rfl : c₁ = c := hcounters
  cases hcalls
  refine ⟨?_, ?_, ?_, ?_, fun h => ⟨h.fileOps, h.syncTriggered, h.loginsSucceeded, h.loginsFailed⟩⟩
  all_goals exact (UInt64.add_zero _).symm

theorem books_refl (l : Ledger) : Books d .none l l := books_same rfl rfl

theorem Books.trans (h : Books d g l l₁) (h' : Books d g' l₁ l₂) : Books d (g + g') l l₂ where
  denied := by
    rw [h'.denied, h.denied, UInt64.add_assoc, ← UInt64.ofNat_add]
    rfl
  refused := by
    rw [h'.refused, h.refused, UInt64.add_assoc, ← UInt64.ofNat_add]
    rfl
  errors := by
    rw [h'.errors, h.errors, UInt64.add_assoc, ← UInt64.ofNat_add]
    rfl
  faults := by
    rw [h'.faults, h.faults, UInt64.add_assoc, ← UInt64.ofNat_add]
    rfl
  even he := h'.even (h.even he)

/-- What is written down is not counted. -/
theorem books_write (level : Level) (text : String) (l : Ledger) :
    Books d .none l (l.write level text) :=
  books_same rfl rfl

/-- Nothing may be added at the end. -/
theorem Books.idle (h : Books d g l l₁) (h' : Books d .none l₁ l₂) : Books d g l l₂ := by
  rw [← Growth.add_none g]
  exact h.trans h'

/-- A denial is counted once. -/
theorem books_denied (l : Ledger) : Books d ⟨1, 0, 0, 0⟩ l (l.count .countAuthDenied) where
  denied := rfl
  refused := (UInt64.add_zero _).symm
  errors := (UInt64.add_zero _).symm
  faults := (UInt64.add_zero _).symm
  even h := ⟨h.fileOps, h.syncTriggered, h.loginsSucceeded, h.loginsFailed⟩

/-- A refusal of the gateway is counted once. -/
theorem books_refused (operation path : String) (l : Ledger) :
    Books d ⟨0, 1, 0, 0⟩ l (Documents.refused operation path l) where
  denied := (UInt64.add_zero _).symm
  refused := rfl
  errors := (UInt64.add_zero _).symm
  faults := (UInt64.add_zero _).symm
  even h := ⟨h.fileOps, h.syncTriggered, h.loginsSucceeded, h.loginsFailed⟩

/-- A file operation is counted once when it is handed on. -/
theorem books_delegated (call : Documents.Call) (l : Ledger) :
    Books d .none l (Documents.delegated call l) where
  denied := (UInt64.add_zero _).symm
  refused := (UInt64.add_zero _).symm
  errors := (UInt64.add_zero _).symm
  faults := (UInt64.add_zero _).symm
  even h := by
    refine ⟨?_, h.syncTriggered, h.loginsSucceeded, h.loginsFailed⟩
    show l.counters.fileOps + 1 = .ofNat (l.documentCalls ++ [call]).length
    rw [h.fileOps, List.length_append, UInt64.ofNat_add]
    rfl

/-- A call to the sync service is counted once. -/
theorem books_sync (login : String) (l : Ledger) :
    Books d .none l ((l.count .countSyncTriggered).addSyncCall login) where
  denied := (UInt64.add_zero _).symm
  refused := (UInt64.add_zero _).symm
  errors := (UInt64.add_zero _).symm
  faults := (UInt64.add_zero _).symm
  even h := by
    refine ⟨h.fileOps, ?_, h.loginsSucceeded, h.loginsFailed⟩
    show l.counters.syncTriggered + 1 = .ofNat (l.syncCalls ++ [login]).length
    rw [h.syncTriggered, List.length_append, UInt64.ofNat_add]
    rfl

/-- A question for a profile is no verdict. -/
theorem books_profile (login : String) (l : Ledger) :
    Books d .none l (l.addDirectoryCall (.profile login)) where
  denied := (UInt64.add_zero _).symm
  refused := (UInt64.add_zero _).symm
  errors := (UInt64.add_zero _).symm
  faults := (UInt64.add_zero _).symm
  even h := by
    have hverdicts : d.verdicts [] (l.directoryCalls ++ [.profile login]) =
        d.verdicts [] l.directoryCalls := by
      rw [Directory.verdicts_append, Directory.verdicts, Directory.verdicts, List.append_nil]
    refine ⟨h.fileOps, h.syncTriggered, ?_, ?_⟩
    · show l.counters.loginsSucceeded = _
      rw [h.loginsSucceeded, Ledger.addDirectoryCall, hverdicts]
    · show l.counters.loginsFailed = _
      rw [h.loginsFailed, Ledger.addDirectoryCall, hverdicts]

/-- The ledger once the verdict of the directory has been counted. -/
def tallied (verdict : Except Stop (Option Principal)) (l : Ledger) : Ledger :=
  match verdict with
  | .ok (some _) => l.count .countLoginSucceeded
  | .ok none => l.count .countLoginFailed
  | .error _ => l

/-- A verdict of the directory is counted once, where it is one. -/
theorem books_authenticate (login password : String) (l : Ledger) :
    Books d .none l (tallied (d l.directoryCalls (.authenticate login password))
      (l.addDirectoryCall (.authenticate login password))) := by
  have hverdicts : d.verdicts [] (l.directoryCalls ++ [.authenticate login password]) =
      d.verdicts [] l.directoryCalls ++ [d l.directoryCalls (.authenticate login password)] := by
    rw [Directory.verdicts_append]
    rfl
  cases hv : d l.directoryCalls (.authenticate login password) with
  | error stop =>
    rw [hv] at hverdicts
    refine ⟨(UInt64.add_zero _).symm, (UInt64.add_zero _).symm, (UInt64.add_zero _).symm,
      (UInt64.add_zero _).symm, fun h => ⟨h.fileOps, h.syncTriggered, ?_, ?_⟩⟩
    · show l.counters.loginsSucceeded =
          .ofNat ((d.verdicts [] (l.directoryCalls ++ _)).countP knows)
      rw [h.loginsSucceeded, hverdicts, List.countP_append]
      rfl
    · show l.counters.loginsFailed =
          .ofNat ((d.verdicts [] (l.directoryCalls ++ _)).countP rejects)
      rw [h.loginsFailed, hverdicts, List.countP_append]
      rfl
  | ok found =>
    rw [hv] at hverdicts
    cases found with
    | none =>
      refine ⟨(UInt64.add_zero _).symm, (UInt64.add_zero _).symm, (UInt64.add_zero _).symm,
        (UInt64.add_zero _).symm, fun h => ⟨h.fileOps, h.syncTriggered, ?_, ?_⟩⟩
      · show l.counters.loginsSucceeded =
            .ofNat ((d.verdicts [] (l.directoryCalls ++ _)).countP knows)
        rw [h.loginsSucceeded, hverdicts, List.countP_append]
        rfl
      · show l.counters.loginsFailed + 1 =
            .ofNat ((d.verdicts [] (l.directoryCalls ++ _)).countP rejects)
        rw [h.loginsFailed, hverdicts, List.countP_append, UInt64.ofNat_add]
        rfl
    | some user =>
      refine ⟨(UInt64.add_zero _).symm, (UInt64.add_zero _).symm, (UInt64.add_zero _).symm,
        (UInt64.add_zero _).symm, fun h => ⟨h.fileOps, h.syncTriggered, ?_, ?_⟩⟩
      · show l.counters.loginsSucceeded + 1 =
            .ofNat ((d.verdicts [] (l.directoryCalls ++ _)).countP knows)
        rw [h.loginsSucceeded, hverdicts, List.countP_append, UInt64.ofNat_add]
        rfl
      · show l.counters.loginsFailed =
            .ofNat ((d.verdicts [] (l.directoryCalls ++ _)).countP rejects)
        rw [h.loginsFailed, hverdicts, List.countP_append]
        rfl

/-- How often a fault is counted as one: denials are not. -/
def Fault.weight (f : Fault) : Nat := if f.isAuthorization then 0 else 1

/-- A fault over HTTP is counted once, unless it is a denial. -/
theorem books_record_http (f : Fault) (method path : String) (l : Ledger) :
    Books d ⟨0, 0, 0, f.weight⟩ l (f.record (.http method path) l) := by
  unfold Fault.weight Fault.record
  cases f.isAuthorization with
  | true => exact books_same rfl rfl
  | false =>
    exact ⟨(UInt64.add_zero _).symm, (UInt64.add_zero _).symm, (UInt64.add_zero _).symm, rfl,
      fun h => ⟨h.fileOps, h.syncTriggered, h.loginsSucceeded, h.loginsFailed⟩⟩

/-- A fault of a root field is counted as an error besides. -/
theorem books_record_graphql (f : Fault) (parentType field : String) (l : Ledger) :
    Books d ⟨0, 0, 1, f.weight⟩ l (f.record (.graphql parentType field) l) := by
  unfold Fault.weight Fault.record
  cases f.isAuthorization with
  | true =>
    exact ⟨(UInt64.add_zero _).symm, (UInt64.add_zero _).symm, rfl, (UInt64.add_zero _).symm,
      fun h => ⟨h.fileOps, h.syncTriggered, h.loginsSucceeded, h.loginsFailed⟩⟩
  | false =>
    exact ⟨(UInt64.add_zero _).symm, (UInt64.add_zero _).symm, rfl, rfl,
      fun h => ⟨h.fileOps, h.syncTriggered, h.loginsSucceeded, h.loginsFailed⟩⟩

/-- What a refusal of the gateway adds, if there is one. -/
def refusal (caller : Documents.Caller) (path : String) : Growth :=
  ⟨0, if (Documents.credential? caller path).isNone then 1 else 0, 0, 0⟩

/-- A file operation is refused or not, and handed on at most once. -/
theorem books_perform (backend : Documents.Backend) (caller : Documents.Caller) (path : String)
    (request : Documents.Request) (l : Ledger) :
    Books d (refusal caller path) l
      (exec (Documents.perform backend caller path request) l).2 := by
  rw [Documents.exec_perform]
  unfold refusal
  cases Documents.credential? caller path with
  | none => exact books_refused request.name path l
  | some credential =>
    cases checkPath path with
    | error f => exact books_refl l
    | ok u => exact books_delegated _ l

end Ledgers

/-! ## Work of a handler -/

/-- With the session `h` the work adds `g` to the books, and it leaves the session as it is. -/
def Bills {α : Type} (d : Directory) (h : Session.Handle) (t : Handling α) (g : Growth) : Prop :=
  ∀ s : Scene, s.session = h →
    (exec t s).2.session = h ∧ Books d g s.ledger (exec t s).2.ledger

section Rules

variable {α β : Type} {d : Directory} {h : Session.Handle} {g : Growth}

theorem bills_of_exec {t : Handling α} (ht : ∀ s, (exec t s).2 = s) : Bills d h t .none := by
  intro s hs
  rw [ht s]
  exact ⟨hs, books_refl _⟩

theorem bills_pure (a : α) : Bills d h (pure a) .none := bills_of_exec fun _ => rfl

theorem bills_fail (f : Failure) : Bills d h (Task.fail f : Handling α) .none :=
  bills_of_exec fun _ => rfl

theorem bills_check (x : Except Failure α) : Bills d h (Task.check x) .none :=
  bills_of_exec fun _ => rfl

theorem bills_onLedger {t : Task Ledger α} (ht : ∀ l, Books d g l (exec t l).2) :
    Bills d h (Handling.onLedger t) g := by
  intro s hs
  exact ⟨hs, ht s.ledger⟩

/-- Work that adds nothing may come last. -/
theorem bills_bind_idle {t : Handling α} {f : α → Handling β} (ht : Bills d h t g)
    (hf : ∀ a, Bills d h (f a) .none) : Bills d h (t >>= f) g := by
  intro s hs
  obtain ⟨hsession, hbooks⟩ := ht s hs
  rw [exec_bind]
  cases he : exec t s with
  | mk x s₁ =>
    rw [he] at hsession hbooks
    cases x with
    | error e => exact ⟨hsession, hbooks⟩
    | ok a =>
      obtain ⟨hsession', hbooks'⟩ := hf a s₁ hsession
      exact ⟨hsession', hbooks.idle hbooks'⟩

/-- What is read of the session is that of the session at hand. -/
theorem bills_session_bind {f : Session.Handle → Handling β} (hf : Bills d h (f h) g) :
    Bills d h (Handling.session >>= f) g := by
  intro s hs
  rw [Task.exec_bind_ok (Handling.exec_session s), hs]
  exact hf s hs

theorem bills_caller_bind {f : Documents.Caller → Handling β}
    (hf : Bills d h (f ⟨h.principal, h.credential⟩) g) : Bills d h (Handling.caller >>= f) g := by
  intro s hs
  rw [Task.exec_bind_ok (Handling.exec_caller s), hs]
  exact hf s hs

/-- Work that stops goes no further. -/
theorem bills_bind_stop {t : Handling α} {f : α → Handling β} {e : Stop} (ht : Bills d h t g)
    (hstop : ∀ s, s.session = h → (exec t s).1 = .error e) : Bills d h (t >>= f) g := by
  intro s hs
  have hstopped := hstop s hs
  have hbills := ht s hs
  rw [exec_bind]
  revert hstopped hbills
  cases exec t s with
  | mk x s₁ =>
    rintro rfl hbills
    exact hbills

end Rules

/-! ## Handlers -/

/-- A guard denies a session. -/
def Session.Guard.denies (guard : Session.Guard) (h : Session.Handle) : Bool :=
  !(guard.check (some h)).toBool

/-- The root fields that ask the document gateway. -/
def Graphql.fileFields : List (Graphql.Operation × String) :=
  [(.query, "folderFiles"), (.query, "getFile"), (.query, "getFileURL"), (.mutation, "putFile")]

/-- Whether an answer has an error that names its field. -/
def Graphql.namesField (answer : Json) : Bool :=
  match answer.get? "errors" with
  | some (.arr [e]) => (e.get? "path").isSome
  | _ => false

namespace Graphql

theorem namesField_dataBody (key : String) (value : Json) :
    namesField (dataBody key value) = false := by
  simp [namesField, dataBody, Json.get?, Members.get?]

theorem namesField_errorBody (e : GraphqlError) :
    namesField (errorBody e) = !e.path.isEmpty := by
  obtain ⟨m, path, code⟩ := e
  cases path <;> simp [namesField, errorBody, GraphqlError.json, Json.get?, Members.get?]

section Fields

variable {d : Directory} {h : Session.Handle} {c : Collaborators}

/-- The field that stores a file asks the gateway twice, and is refused the first time if at
all. -/
theorem bills_putFile (q : Query) :
    Bills d h (putFile c q) (refusal ⟨h.principal, h.credential⟩ q.path) := by
  refine bills_caller_bind ?_
  cases hc : Documents.credential? ⟨h.principal, h.credential⟩ q.path with
  | none =>
    have hrefused : refusal ⟨h.principal, h.credential⟩ q.path = ⟨0, 1, 0, 0⟩ := by
      rw [refusal, hc]
      rfl
    rw [hrefused]
    refine bills_bind_stop (e := .failed (.unauthorized Documents.notAuthorized)) ?_ ?_
    · refine bills_bind_idle (bills_onLedger fun l => ?_) fun _ => bills_pure _
      rw [Documents.exec_requireCredential_none hc]
      exact books_refused _ _ l
    · intro s _
      rw [Functor.discard]
      show (exec (Handling.onLedger _ >>= fun _ => pure ()) s).1 = _
      rw [exec_bind, Handling.exec_onLedger, Documents.exec_requireCredential_none hc]
  | some credential =>
    have hpassed : refusal ⟨h.principal, h.credential⟩ q.path = .none := by
      rw [refusal, hc]
      rfl
    rw [hpassed]
    refine bills_bind_idle ?_ fun _ => bills_bind_idle (bills_check _) fun text => ?_
    · refine bills_bind_idle (bills_onLedger fun l => ?_) fun _ => bills_pure _
      rw [Documents.exec_requireCredential_some hc]
      exact books_refl l
    · cases Base64.decode? text with
      | none => exact bills_fail _
      | some content =>
        refine bills_bind_idle (bills_onLedger fun l => ?_) fun _ => bills_pure _
        rw [← hpassed]
        exact books_perform _ _ _ _ l

/-- What a root field of the portal adds to the books: a refusal of the gateway at most. -/
theorem bills_field {field : Field} (hmem : field ∈ portalRegistry.fields) (q : Query) :
    Bills d h (field.resolve c q)
      (if (field.operation, field.name) ∈ fileFields then
        refusal ⟨h.principal, h.credential⟩ q.path else .none) := by
  have hperform (request : Documents.Request) :
      Bills d h (Handling.onLedger (Documents.perform c.documents ⟨h.principal, h.credential⟩
        q.path request)) (refusal ⟨h.principal, h.credential⟩ q.path) :=
    bills_onLedger fun l => books_perform _ _ _ request l
  rw [fields_portalRegistry] at hmem
  simp only [portalFields, List.mem_cons, List.not_mem_nil, or_false] at hmem
  rcases hmem with rfl | rfl | rfl | rfl | rfl
  · rw [if_neg (by decide)]
    show Bills d h (me c q) _
    rw [me]
    cases q.principal with
    | none => exact bills_fail _
    | some user => exact bills_session_bind (bills_pure _)
  · rw [if_pos (by decide)]
    exact bills_caller_bind (bills_bind_idle (hperform _) fun _ => bills_pure _)
  · rw [if_pos (by decide)]
    exact bills_caller_bind (bills_bind_idle (hperform _) fun _ => bills_pure _)
  · rw [if_pos (by decide)]
    exact bills_caller_bind (bills_bind_idle (hperform _) fun _ => bills_pure _)
  · rw [if_pos (by decide)]
    exact bills_putFile _

/-- The same for the field that a document asks for. -/
theorem bills_resolve {root : RootField} {field : Field} (who : Option Principal)
    (hlookup : portalRegistry.lookup root.operation root.name = some field) :
    Bills d h (field.resolve c ⟨who, root.arguments⟩)
      (if (root.operation, root.name) ∈ fileFields then
        refusal ⟨h.principal, h.credential⟩ (Query.path ⟨none, root.arguments⟩) else .none) := by
  have hnames := List.find?_some hlookup
  simp only [Bool.and_eq_true, decide_eq_true_eq] at hnames
  rw [← hnames.1, ← hnames.2]
  exact bills_field (List.mem_of_find?_eq_some hlookup) ⟨who, root.arguments⟩

end Fields

end Graphql

end Intranet
