import Intranet.Counters
import Intranet.Directory
import Intranet.Journal

/-!
# The ledger

What the work of the portal leaves behind apart from sessions: counters, lines of the journal, and
the calls made to its collaborators, each in order. A task is work that may change a state and may
stop before its end; what it changed until then stays.
-/

namespace Intranet

/-- What work leaves behind. -/
structure Ledger where
  counters : Counters
  journal : List Line
  documentCalls : List Documents.Call
  directoryCalls : List DirectoryCall
  syncCalls : List String
  deriving DecidableEq, Repr

namespace Ledger

/-- Nothing left behind yet. -/
def empty : Ledger := ⟨.zero, [], [], [], []⟩

instance : Inhabited Ledger := ⟨empty⟩

/-- Writes a line. -/
def write (level : Level) (text : String) (l : Ledger) : Ledger :=
  { l with journal := l.journal ++ [⟨level, text⟩] }

/-- Counts an event. -/
def count (event : Counters → Counters) (l : Ledger) : Ledger :=
  { l with counters := event l.counters }

/-- Adds a call to the document backend. -/
def addDocumentCall (call : Documents.Call) (l : Ledger) : Ledger :=
  { l with documentCalls := l.documentCalls ++ [call] }

/-- Adds a call to the directory. -/
def addDirectoryCall (call : DirectoryCall) (l : Ledger) : Ledger :=
  { l with directoryCalls := l.directoryCalls ++ [call] }

/-- Adds a call to the sync service. -/
def addSyncCall (login : String) (l : Ledger) : Ledger :=
  { l with syncCalls := l.syncCalls ++ [login] }

end Ledger

/-! ## Tasks -/

/-- Work on a state that may stop before its end. -/
abbrev Task (σ α : Type) : Type := ExceptT Stop (StateM σ) α

namespace Task

variable {σ τ α : Type}

/-- Stops with a failure. -/
def fail (f : Failure) : Task σ α := throw (.failed f)

/-- Goes on with a result or stops. -/
def ofExcept (x : Except Stop α) : Task σ α := ExceptT.mk (pure x)

/-- Goes on with a checked result or stops with a failure. -/
def check (x : Except Failure α) : Task σ α := ofExcept (x.mapError .failed)

/-- Work on a part of a state. -/
def zoom (get : σ → τ) (set : τ → σ → σ) (t : Task τ α) : Task σ α :=
  ExceptT.mk fun s =>
    let (result, part) := t.run (get s)
    (result, set part s)

/-- Writes a line. -/
def write (level : Level) (text : String) : Task Ledger Unit := modify (Ledger.write level text)

/-- Counts an event. -/
def count (event : Counters → Counters) : Task Ledger Unit := modify (Ledger.count event)

end Task

end Intranet
