import Intranet.Failure

/-!
# Database errors

What the database client can report, and the failures of the portal that follow.
-/

namespace Intranet.Database

/-- An error of the database client. -/
inductive Problem where
  | rowNotFound
  | poolTimedOut
  | poolClosed
  | workerCrashed
  | columnNotFound (column : String)
  | protocol (reason : String)
  | configuration (reason : String)
  /-- The database answered with an error. -/
  | reported (message : String)
  deriving DecidableEq, Repr

/-- The text of an error. -/
def Problem.message : Problem → String
  | rowNotFound => "no rows returned by a query that expected to return at least one row"
  | poolTimedOut => "pool timed out while waiting for an open connection"
  | poolClosed => "attempted to acquire a connection on a closed pool"
  | workerCrashed => "attempted to communicate with a crashed background worker"
  | columnNotFound column => "no column found for name: " ++ column
  | protocol reason => "encountered unexpected or invalid data: " ++ reason
  | configuration reason => "error with configuration: " ++ reason
  | reported message => "error returned from database: " ++ message

/-- The failure that an error of the database becomes. -/
def Problem.failure : Problem → Failure
  | rowNotFound => .notFound "Record not found"
  | reported message => .database ("Database error: " ++ message)
  | poolTimedOut => .unavailable "Database connection pool timed out"
  | problem => .database ("Database error: " ++ problem.message)

end Intranet.Database
