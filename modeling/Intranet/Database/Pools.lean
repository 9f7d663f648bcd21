import Intranet.Journal
import Intranet.Settings.Check

/-!
# Database pools

Writes go to the primary database. Reads go to the replicas in turn, or to the primary when there
are none.
-/

namespace Intranet.Database

open Settings (Endpoint)

/-- A pool: that of the primary database, or that of a replica by its place among the replicas. -/
inductive Pool where
  | primary
  | replica (place : Nat)
  deriving DecidableEq, Repr

/-- The pools, by their endpoints, and the number of reads that replicas have served. -/
structure Pools where
  primary : Endpoint
  replicas : List Endpoint
  /-- Counts with 64 bits and wraps around. -/
  next : UInt64
  deriving DecidableEq, Repr

namespace Pools

/-- The pools for the settings of the database. -/
def ofSettings (d : Settings.Database) : Except Settings.Unfit Pools :=
  d.replicaEndpoints.map fun replicas => ⟨⟨d.host, d.port⟩, replicas, 0⟩

/-- The line that tells what was set up. -/
def line (d : Settings.Database) (p : Pools) : Line :=
  ⟨.info, "Database " ++ d.database ++ " on " ++ d.host ++ ":" ++ toString d.port.toNat ++
    " (schema " ++ d.schema ++ ", " ++ toString p.replicas.length ++ " read replica(s))"⟩

/-- The endpoint to which a pool connects, if there is such a pool. -/
def endpoint? (p : Pools) : Pool → Option Endpoint
  | .primary => some p.primary
  | .replica place => p.replicas[place]?

/-- The pool for writes. -/
def writer (p : Pools) : Endpoint := p.primary

/-- The pool for a read, and the pools after it. -/
def reader (p : Pools) : Pool × Pools :=
  if p.replicas.isEmpty then (.primary, p)
  else (.replica (p.next.toNat % p.replicas.length), { p with next := p.next + 1 })

/-- The pools for so many reads in a row. -/
def reads : Nat → Pools → List Pool × Pools
  | 0, p => ([], p)
  | n + 1, p =>
    let (first, p) := p.reader
    let (rest, p) := reads n p
    (first :: rest, p)

/-- The endpoints of the pools for so many reads in a row. -/
def readers (n : Nat) (p : Pools) : List Endpoint × Pools :=
  let (pools, after) := p.reads n
  (pools.filterMap p.endpoint?, after)

end Pools

end Intranet.Database
