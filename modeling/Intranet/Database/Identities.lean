import Intranet.Crypto.PasswordHash
import Intranet.Database.Problem
import Intranet.Ledger

/-!
# Identities in the database

The directory as the database keeps it: the statements that look a login up, and what is made of
the rows that they give.
-/

namespace Intranet.Database.Identities

/-- The statement that looks up who may sign in under a login. -/
def credentialsStatement : String :=
  "SELECT id, login, display_name, is_admin, password_hash FROM users WHERE login = $1"

/-- The statement that looks up the profile of a login. -/
def profileStatement : String :=
  "SELECT id, login, display_name, email, department, title, gender, phone, is_admin, " ++
    "synced_at FROM users WHERE login = $1"

/-- The second in which the year 2000 began. -/
def epoch : Int := 946684800

/-- The point in time that a row gives in microseconds since the year 2000. -/
def moment (micros : Int) : Instant := ⟨epoch + micros / 1000000, (micros % 1000000).toNat * 1000⟩

/-- Who may sign in, and the hash of the password if there is one. -/
structure Credentials where
  principal : Principal
  passwordHash : Option String
  deriving DecidableEq, Repr

/-- The principal who signs in with a password, by the first of the rows for the login. -/
def authenticate (rows : Except Problem (List Credentials)) (password : String) :
    Task Ledger (Option Principal) := do
  match (← Task.check (rows.mapError Problem.failure)).head? with
  | none => return none
  | some found =>
    match found.passwordHash with
    | none =>
      Task.write .debug ("User " ++ found.principal.login ++ " has no password hash mirrored yet")
      return none
    | some stored =>
      match Crypto.PasswordHash.verify password stored with
      | .ok matched => return if matched then some found.principal else none
      | .error flaw =>
        Task.write .warn
          ("Stored password hash for " ++ found.principal.login ++
            " is unusable: " ++ flaw.message)
        return none

/-- The profile of a login, by the first of its rows. -/
def profile (rows : Except Problem (List Profile)) : Except Failure (Option Profile) :=
  (rows.mapError Problem.failure).map List.head?

end Intranet.Database.Identities
