import Intranet.Portal.Routes

/-!
# Running tasks

A task is run on a state and gives its result with the state it leaves, also when it stops. The
lemmas below say what each building block of the handlers gives, so that a handler is read step by
step and no later proof looks into the monad.

Main results: `exec_bind` (a step and what follows it), `exec_perform` (a file operation,
completely), `exec_ask` and `exec_triggerSync` (the other collaborators).
-/

namespace Intranet

namespace Task

variable {σ τ α β : Type}

/-- The result of a task and the state it leaves. -/
def exec (t : Task σ α) (s : σ) : Except Stop α × σ := t.run.run s

@[simp] theorem exec_pure (a : α) (s : σ) : exec (pure a : Task σ α) s = (.ok a, s) := rfl

/-- A step, and what follows it unless the step stops. -/
theorem exec_bind (t : Task σ α) (f : α → Task σ β) (s : σ) :
    exec (t >>= f) s =
      match exec t s with
      | (.ok a, s) => exec (f a) s
      | (.error e, s) => (.error e, s) := by
  show (ExceptT.bindCont f (t.run.run s).1).run (t.run.run s).2 = _
  cases h : t.run.run s with
  | mk x s₁ => cases x <;> simp [exec, h] <;> rfl

theorem exec_bind_ok {t : Task σ α} {s s₁ : σ} {a : α} (h : exec t s = (.ok a, s₁))
    (f : α → Task σ β) : exec (t >>= f) s = exec (f a) s₁ := by
  rw [exec_bind, h]

theorem exec_bind_error {t : Task σ α} {s s₁ : σ} {e : Stop} (h : exec t s = (.error e, s₁))
    (f : α → Task σ β) : exec (t >>= f) s = (.error e, s₁) := by
  rw [exec_bind, h]

@[simp] theorem exec_fail (f : Failure) (s : σ) :
    exec (fail f : Task σ α) s = (.error (.failed f), s) := rfl

@[simp] theorem exec_ofExcept (x : Except Stop α) (s : σ) :
    exec (ofExcept x : Task σ α) s = (x, s) := rfl

@[simp] theorem exec_check_ok (a : α) (s : σ) :
    exec (check (.ok a) : Task σ α) s = (.ok a, s) := rfl

@[simp] theorem exec_check_error (f : Failure) (s : σ) :
    exec (check (.error f) : Task σ α) s = (.error (.failed f), s) := rfl

@[simp] theorem exec_modify (f : σ → σ) (s : σ) :
    exec (modify f : Task σ Unit) s = (.ok (), f s) := rfl

@[simp] theorem exec_get (s : σ) : exec (get : Task σ σ) s = (.ok s, s) := rfl

@[simp] theorem exec_write (level : Level) (text : String) (l : Ledger) :
    exec (write level text) l = (.ok (), l.write level text) := rfl

@[simp] theorem exec_count (event : Counters → Counters) (l : Ledger) :
    exec (count event) l = (.ok (), l.count event) := rfl

end Task

open Intranet.Task (exec exec_bind exec_bind_ok exec_bind_error)

namespace Handling

variable {α : Type}

/-- The scene with another ledger. -/
abbrev withLedger (s : Scene) (l : Ledger) : Scene := { s with ledger := l }

@[simp] theorem exec_onLedger (t : Task Ledger α) (s : Scene) :
    exec (onLedger t) s = ((exec t s.ledger).1, withLedger s (exec t s.ledger).2) := rfl

@[simp] theorem exec_session (s : Scene) : exec session s = (.ok s.session, s) := rfl

@[simp] theorem exec_changeSession (f : Session.Handle → Session.Handle) (s : Scene) :
    exec (changeSession f) s = (.ok (), { s with session := f s.session }) := rfl

@[simp] theorem exec_caller (s : Scene) :
    exec caller s = (.ok ⟨s.session.principal, s.session.credential⟩, s) := rfl

/-- A guard lets pass without a trace. -/
theorem exec_guarded_ok {guard : Session.Guard} {s : Scene} {who : Option Principal}
    (h : guard.check (some s.session) = .ok who) : exec (guarded guard) s = (.ok who, s) := by
  simp only [guarded, exec_bind, exec_session, h, Task.exec_pure]

/-- A denial is counted. -/
theorem exec_guarded_error {guard : Session.Guard} {s : Scene} {denial : Failure}
    (h : guard.check (some s.session) = .error denial) :
    exec (guarded guard) s =
      (.error (.failed denial), withLedger s (s.ledger.count .countAuthDenied)) := by
  simp only [guarded, exec_bind, exec_session, h, exec_onLedger, Task.exec_count, Task.exec_fail]

end Handling

/-! ## Collaborators -/

namespace Documents

/-- The ledger after a refusal of the gateway. -/
def refused (operation path : String) (l : Ledger) : Ledger :=
  (l.count .countFileDenied).write .debug
    ("Refusing " ++ operation ++ " for '" ++ path ++ "': missing path, user or credential")

/-- The ledger once an operation has been handed on. -/
def delegated (call : Call) (l : Ledger) : Ledger :=
  ((l.count .countFileOp).write .debug
    (call.request.name ++ " " ++ call.path ++ " for " ++ call.credential.username)).addDocumentCall
      call

theorem exec_requireCredential_none {operation path : String} {caller : Caller}
    (h : credential? caller path = none) (l : Ledger) :
    exec (requireCredential operation caller path) l =
      (.error (.failed (.unauthorized notAuthorized)), refused operation path l) := by
  simp only [requireCredential, h, exec_bind, Task.exec_count, Task.exec_write, Task.exec_fail,
    refused]

theorem exec_requireCredential_some {operation path : String} {caller : Caller}
    {credential : Credential} (h : credential? caller path = some credential) (l : Ledger) :
    exec (requireCredential operation caller path) l = (.ok credential, l) := by
  simp only [requireCredential, h, Task.exec_pure]

/-- **A file operation, completely.** It is refused, its path is refused, or it is counted, written
down and handed on, and the answer of the backend is its result. -/
theorem exec_perform (backend : Backend) (caller : Caller) (path : String) (request : Request)
    (l : Ledger) :
    exec (perform backend caller path request) l =
      match credential? caller path with
      | none =>
        (.error (.failed (.unauthorized notAuthorized)), refused request.name path l)
      | some credential =>
        match checkPath path with
        | .error f => (.error (.failed f), l)
        | .ok () =>
          (backend l.documentCalls ⟨request, credential, path⟩,
            delegated ⟨request, credential, path⟩ l) := by
  cases hc : credential? caller path with
  | none =>
    simp only [perform, authorize, exec_bind, exec_requireCredential_none hc]
  | some credential =>
    cases hp : checkPath path with
    | error f =>
      simp only [perform, authorize, exec_bind, exec_requireCredential_some hc, hp,
        Task.exec_check_error]
    | ok u =>
      simp only [perform, authorize, ask, exec_bind, exec_requireCredential_some hc, hp,
        Task.exec_check_ok, Task.exec_count, Task.exec_write, Task.exec_pure, Task.exec_get,
        Task.exec_modify, Task.exec_ofExcept]
      rfl

/-- A credential is the login of the person and the secret, neither of which may be missing. -/
theorem credential?_eq_some {caller : Caller} {path : String} {credential : Credential}
    (h : credential? caller path = some credential) :
    ∃ user secret, caller.user = some user ∧ caller.credential = some secret ∧
      secret ≠ "" ∧ Text.isBlankText path = false ∧ credential = ⟨user.login, secret⟩ := by
  obtain ⟨who, what⟩ := caller
  cases who with
  | none => simp [credential?] at h
  | some user =>
    cases what with
    | none => simp [credential?] at h
    | some secret =>
      simp only [credential?] at h
      split at h
      · cases h
      · rename_i hn
        simp only [Bool.or_eq_true, not_or, Bool.not_eq_true, String.isEmpty_eq_false_iff] at hn
        cases h
        exact ⟨user, secret, rfl, rfl, hn.2, hn.1, rfl⟩

end Documents

namespace Portal

/-- A question to the directory is written down and answered. -/
@[simp] theorem exec_ask (p : Portal) (call : DirectoryCall) (l : Ledger) :
    exec (p.ask call) l =
      (p.collaborators.directory l.directoryCalls call, l.addDirectoryCall call) := rfl

/-- Asking for a principal. -/
theorem exec_ask_authenticate (p : Portal) (login password : String) (l : Ledger) :
    @exec Ledger (Option Principal) (p.ask (.authenticate login password)) l =
      (p.collaborators.directory l.directoryCalls (.authenticate login password),
        l.addDirectoryCall (.authenticate login password)) := rfl

/-- The sync service is triggered once, and that is counted. -/
@[simp] theorem exec_triggerSync (p : Portal) (login : String) (l : Ledger) :
    exec (p.triggerSync login) l =
      (p.collaborators.sync l.syncCalls login,
        (l.count .countSyncTriggered).addSyncCall login) := rfl

end Portal

end Intranet
