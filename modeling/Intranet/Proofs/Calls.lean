import Intranet.Proofs.Tasks

/-!
# Calls to collaborators

The calls that work leaves behind in the ledger, and the rules by which those of a handler are
found from those of its steps.

* `Calls` — the calls of a stretch of work, put together with `++`;
* `Acts h t P` — with the session `h`, the work `t` makes calls that fulfil `P`, leaves the session
  as it is and draws no identifier;
* `Idle t` — the work `t` does this without any call. Idle work may come before (`acts_idle_bind`)
  or after (`acts_bind_idle`) the one step of a handler that is not idle.
-/

namespace Intranet

open Intranet.Task (exec exec_bind)

/-! ## Calls -/

/-- The calls to the collaborators, each kind in order. -/
structure Calls where
  documents : List Documents.Call
  directory : List DirectoryCall
  sync : List String
  deriving DecidableEq

namespace Calls

/-- No call. -/
def none : Calls := ⟨[], [], []⟩

/-- The calls of one stretch of work and then those of another. -/
def append (c d : Calls) : Calls :=
  ⟨c.documents ++ d.documents, c.directory ++ d.directory, c.sync ++ d.sync⟩

instance : Append Calls := ⟨append⟩

@[simp] theorem append_none (c : Calls) : c ++ none = c := by
  show append c none = c
  simp [append, none]

end Calls

/-- The calls that a ledger holds. -/
def Ledger.calls (l : Ledger) : Calls := ⟨l.documentCalls, l.directoryCalls, l.syncCalls⟩

@[simp] theorem Ledger.calls_write (level : Level) (text : String) (l : Ledger) :
    (l.write level text).calls = l.calls := rfl

@[simp] theorem Ledger.calls_count (event : Counters → Counters) (l : Ledger) :
    (l.count event).calls = l.calls := rfl

@[simp] theorem Ledger.calls_addDocumentCall (call : Documents.Call) (l : Ledger) :
    (l.addDocumentCall call).calls = l.calls ++ ⟨[call], [], []⟩ := by
  show _ = Calls.append _ _
  simp [Calls.append, Ledger.calls, Ledger.addDocumentCall]

@[simp] theorem Ledger.calls_addDirectoryCall (call : DirectoryCall) (l : Ledger) :
    (l.addDirectoryCall call).calls = l.calls ++ ⟨[], [call], []⟩ := by
  show _ = Calls.append _ _
  simp [Calls.append, Ledger.calls, Ledger.addDirectoryCall]

@[simp] theorem Ledger.calls_addSyncCall (login : String) (l : Ledger) :
    (l.addSyncCall login).calls = l.calls ++ ⟨[], [], [login]⟩ := by
  show _ = Calls.append _ _
  simp [Calls.append, Ledger.calls, Ledger.addSyncCall]

@[simp] theorem Fault.calls_record (f : Fault) (place : Place) (l : Ledger) :
    (f.record place l).calls = l.calls := by
  cases place <;> simp only [Fault.record] <;> split <;> rfl

/-! ## Work that leaves the session alone -/

/-- Work with a session that leaves it as it is, draws no identifier, and makes calls that fulfil
`P`. -/
def Acts {α : Type} (h : Session.Handle) (t : Handling α) (P : Calls → Prop) : Prop :=
  ∀ s : Scene, s.session = h →
    (exec t s).2.session = h ∧ (exec t s).2.drawn = s.drawn ∧
      ∃ c, (exec t s).2.ledger.calls = s.ledger.calls ++ c ∧ P c

/-- Work that leaves every session as it is and calls nobody. -/
def Idle {α : Type} (t : Handling α) : Prop := ∀ h, Acts h t (· = .none)

section Rules

variable {α β : Type} {h : Session.Handle} {P Q : Calls → Prop}

theorem acts_mono {t : Handling α} (ht : Acts h t P) (hPQ : ∀ c, P c → Q c) : Acts h t Q := by
  intro s hs
  obtain ⟨hsession, hdrawn, c, hc, hP⟩ := ht s hs
  exact ⟨hsession, hdrawn, c, hc, hPQ c hP⟩

theorem Idle.acts {t : Handling α} (ht : Idle t) (hP : P .none) : Acts h t P :=
  acts_mono (ht h) fun _ hc => hc ▸ hP

/-- Work whose result leaves the scene as it was calls nobody. -/
theorem idle_of_exec {t : Handling α} (ht : ∀ s, (exec t s).2 = s) : Idle t := by
  intro h s hs
  rw [ht s]
  exact ⟨hs, rfl, .none, (Calls.append_none _).symm, rfl⟩

theorem idle_pure (a : α) : Idle (pure a : Handling α) := idle_of_exec fun _ => rfl

theorem idle_fail (f : Failure) : Idle (Task.fail f : Handling α) := idle_of_exec fun _ => rfl

theorem idle_check (x : Except Failure α) : Idle (Task.check x : Handling α) :=
  idle_of_exec fun _ => rfl

theorem idle_session : Idle Handling.session := idle_of_exec fun _ => rfl

/-- Work on the ledger alone makes the calls that it adds to the ledger. -/
theorem acts_onLedger {t : Task Ledger α}
    (ht : ∀ l, ∃ c, (exec t l).2.calls = l.calls ++ c ∧ P c) : Acts h (Handling.onLedger t) P := by
  intro s hs
  rw [Handling.exec_onLedger]
  exact ⟨hs, rfl, ht s.ledger⟩

theorem idle_onLedger {t : Task Ledger α} (ht : ∀ l, (exec t l).2.calls = l.calls) :
    Idle (Handling.onLedger t) := fun _ =>
  acts_onLedger fun l => ⟨.none, by rw [ht l, Calls.append_none], rfl⟩

theorem idle_write (level : Level) (text : String) :
    Idle (Handling.onLedger (Task.write level text)) := idle_onLedger fun _ => rfl

/-- Idle work may come first. -/
theorem acts_idle_bind {t : Handling α} {f : α → Handling β} (ht : Idle t) (hP : P .none)
    (hf : ∀ a, Acts h (f a) P) : Acts h (t >>= f) P := by
  intro s hs
  obtain ⟨hsession, hdrawn, c, hc, rfl⟩ := ht h s hs
  rw [Calls.append_none] at hc
  rw [exec_bind]
  cases he : exec t s with
  | mk x s₁ =>
    rw [he] at hsession hdrawn hc
    cases x with
    | error e => exact ⟨hsession, hdrawn, .none, by rw [hc, Calls.append_none], hP⟩
    | ok a =>
      obtain ⟨h₂, d₂, c₂, hc₂, hP₂⟩ := hf a s₁ hsession
      exact ⟨h₂, d₂.trans hdrawn, c₂, by rw [hc₂, hc], hP₂⟩

/-- Idle work may come last. -/
theorem acts_bind_idle {t : Handling α} {f : α → Handling β} (ht : Acts h t P)
    (hf : ∀ a, Idle (f a)) : Acts h (t >>= f) P := by
  intro s hs
  obtain ⟨hsession, hdrawn, c, hc, hP⟩ := ht s hs
  rw [exec_bind]
  cases he : exec t s with
  | mk x s₁ =>
    rw [he] at hsession hdrawn hc
    cases x with
    | error e => exact ⟨hsession, hdrawn, c, hc, hP⟩
    | ok a =>
      obtain ⟨h₂, d₂, c₂, hc₂, rfl⟩ := hf a h s₁ hsession
      rw [Calls.append_none] at hc₂
      exact ⟨h₂, d₂.trans hdrawn, c, by rw [hc₂, hc], hP⟩

theorem idle_bind {t : Handling α} {f : α → Handling β} (ht : Idle t) (hf : ∀ a, Idle (f a)) :
    Idle (t >>= f) := fun h => acts_idle_bind ht rfl fun a => hf a h

/-- What is read of the session is that of the session at hand. -/
theorem acts_session_bind {f : Session.Handle → Handling β} (hf : Acts h (f h) P) :
    Acts h (Handling.session >>= f) P := by
  intro s hs
  rw [Task.exec_bind_ok (Handling.exec_session s), hs]
  exact hf s hs

theorem acts_caller_bind {f : Documents.Caller → Handling β}
    (hf : Acts h (f ⟨h.principal, h.credential⟩) P) : Acts h (Handling.caller >>= f) P := by
  intro s hs
  rw [Task.exec_bind_ok (Handling.exec_caller s), hs]
  exact hf s hs

/-- What is checked holds in what follows. -/
theorem acts_check_bind {x : Except Failure α} {f : α → Handling β} (hP : P .none)
    (hf : ∀ a, x = .ok a → Acts h (f a) P) : Acts h (Task.check x >>= f) P := by
  cases x with
  | error e => exact (idle_of_exec fun _ => rfl : Idle (Task.check (.error e) >>= f)).acts hP
  | ok a => exact hf a rfl

end Rules

end Intranet
