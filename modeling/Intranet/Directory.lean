import Intranet.Documents.Backend

/-!
# The directory and the sync service

Two more collaborators: the directory checks passwords and knows profiles, the sync service copies
identities into the directory.
-/

namespace Intranet

/-- A call to the directory. -/
inductive DirectoryCall where
  | authenticate (login password : String)
  | profile (login : String)
  deriving DecidableEq, Repr

/-- What a call to the directory is answered with. -/
abbrev DirectoryCall.Reply : DirectoryCall → Type
  | authenticate _ _ => Option Principal
  | profile _ => Option Profile

/-- The directory: from the calls so far and the next one to its answer. -/
def Directory : Type := List DirectoryCall → (call : DirectoryCall) → Except Stop call.Reply

/-- The sync service: from the logins it was triggered for so far and the next one to its
report. -/
def SyncService : Type := List String → String → Except Stop Json

/-- All that the portal calls for. -/
structure Collaborators where
  directory : Directory
  documents : Documents.Backend
  sync : SyncService

end Intranet
