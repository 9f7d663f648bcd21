import Intranet.Ledger
import Intranet.Session.Record

/-!
# Session stores

A store files records under their identifiers for a time. It is described by its operations on a
state of its own, so that stores of different make can stand behind the same portal. The world of a
running portal is that state, the clock, and what was done so far; each call to the store is
written down before it is made, and an outage may refuse it.
-/

namespace Intranet.Session

/-! ## What can go wrong -/

/-- Why a store refused a call. -/
inductive StoreError where
  | backend (reason : String)
  | encoding (reason : String)
  deriving DecidableEq, Repr

/-- The text of a refusal. -/
def StoreError.message : StoreError → String
  | backend reason => "session store unavailable: " ++ reason
  | encoding reason => "session record could not be encoded: " ++ reason

/-- A refusal as a failure of the portal. -/
def StoreError.failure (e : StoreError) : Failure := .session e.message

/-- A breakdown outside of any handler. -/
structure Crash where
  payload : String
  deriving DecidableEq, Repr

/-! ## Stores -/

/-- A store with states of type `σ`. Times are milliseconds since 1970. -/
structure Store (σ : Type) where
  /-- The record of an identifier, if it has not expired. -/
  load : (now : Nat) → Id → σ → Except StoreError (Option Record) × σ
  /-- Files a record under its identifier for so many milliseconds. -/
  save : (now : Nat) → Record → (ttl : Nat) → σ → Except Crash σ
  /-- Removes what is filed under an identifier. -/
  remove : Id → σ → σ
  /-- How many records have not expired. -/
  live : (now : Nat) → σ → Nat

/-- A call to a store. -/
inductive StoreCall where
  | load (id : Id)
  | save (record : Record) (ttl : Nat)
  | remove (id : Id)
  deriving Repr

/-- Which calls are refused: the number of calls before it and the call decide. -/
abbrev Outage : Type := Nat → StoreCall → Option StoreError

/-- No call is refused. -/
def Outage.none : Outage := fun _ _ => Option.none

/-! ## The world -/

/-- The state of a running portal. -/
structure World (σ : Type) where
  store : σ
  /-- Milliseconds since 1970. -/
  clock : Nat
  /-- How many identifiers were drawn. -/
  drawn : Nat
  outage : Outage
  storeCalls : List StoreCall
  ledger : Ledger

/-- The world before anything was done. -/
def World.start {σ : Type} (store : σ) (clock : Nat) : World σ :=
  ⟨store, clock, 0, .none, [], .empty⟩

/-- Work on the world that may break down. -/
abbrev Serving (σ α : Type) : Type := ExceptT Crash (StateM (World σ)) α

/-- Work on the world that the store may refuse. -/
abbrev Storing (σ α : Type) : Type := ExceptT StoreError (ExceptT Crash (StateM (World σ))) α

namespace Storing

variable {σ α : Type}

/-- Breaks down. -/
def crash (c : Crash) : Storing σ α := ExceptT.mk (throw c)

/-- Goes on with a result or breaks down. -/
def orCrash (x : Except Crash α) : Storing σ α :=
  match x with
  | .ok a => pure a
  | .error c => crash c

/-- Writes a line into the journal. -/
def write (level : Level) (text : String) : Storing σ Unit :=
  modify fun w => { w with ledger := w.ledger.write level text }

/-- Writes a call down; an outage may refuse it. -/
def announce (call : StoreCall) : Storing σ Unit := do
  let w ← get
  set { w with storeCalls := w.storeCalls ++ [call] }
  match w.outage w.storeCalls.length call with
  | some e => throw e
  | none => pure ()

/-- Calls the store for the record of an identifier. -/
def load (s : Store σ) (id : Id) : Storing σ (Option Record) := do
  announce (.load id)
  let w ← get
  let (result, store) := s.load w.clock id w.store
  set { w with store := store }
  match result with
  | .ok found => pure found
  | .error e => throw e

/-- Calls the store to file a record. -/
def save (s : Store σ) (record : Record) (ttl : Nat) : Storing σ Unit := do
  announce (.save record ttl)
  let w ← get
  let store ← orCrash (s.save w.clock record ttl w.store)
  set { w with store := store }

/-- Calls the store to remove what is filed under an identifier. -/
def remove (s : Store σ) (id : Id) : Storing σ Unit := do
  announce (.remove id)
  modify fun w => { w with store := s.remove id w.store }

end Storing

end Intranet.Session
