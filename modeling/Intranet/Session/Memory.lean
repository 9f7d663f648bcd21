import Intranet.Session.Store

/-!
# Sessions in memory

A store for a single process. Each record has a deadline; from then on it counts as gone, and it is
dropped when it is next asked for or when the store is purged.
-/

namespace Intranet.Session

/-- A record with its deadline, in milliseconds since 1970. -/
structure Filed where
  record : Record
  deadline : Nat
  deriving Repr

/-- Records under their identifiers, each identifier once. -/
structure Memory where
  entries : List (Id × Filed)
  deriving Repr

namespace Memory

/-- Nothing filed. -/
def empty : Memory := ⟨[]⟩

instance : Inhabited Memory := ⟨empty⟩

/-- What is filed under an identifier, expired or not. -/
def find? (id : Id) (m : Memory) : Option Filed := m.entries.lookup id

/-- Removes what is filed under an identifier. -/
def remove (id : Id) (m : Memory) : Memory := ⟨m.entries.filter fun (i, _) => i ≠ id⟩

/-- The record of an identifier, if its deadline lies ahead. An expired one is dropped. -/
def load (now : Nat) (id : Id) (m : Memory) : Option Record × Memory :=
  match m.find? id with
  | some filed => if now < filed.deadline then (some filed.record, m) else (none, m.remove id)
  | none => (none, m)

/-- The seconds that a point of the clock cannot reach. -/
def clockLimit : Nat := Nat.pow 2 63

/-- Files a record under its identifier, in place of an earlier one. The deadline has to be a point
of the clock. -/
def save (now : Nat) (record : Record) (ttl : Nat) (m : Memory) : Except Crash Memory :=
  let deadline := now + ttl
  if deadline / 1000 < clockLimit then
    .ok ⟨(record.id, ⟨record, deadline⟩) :: (m.remove record.id).entries⟩
  else .error ⟨"overflow when adding duration to instant"⟩

/-- How many records have their deadline ahead. -/
def live (now : Nat) (m : Memory) : Nat := m.entries.countP fun (_, filed) => now < filed.deadline

/-- Drops all expired records. -/
def purge (now : Nat) (m : Memory) : Memory :=
  ⟨m.entries.filter fun (_, filed) => now < filed.deadline⟩

/-- The store in memory. -/
def store : Store Memory where
  load now id m := ((m.load now id).1 |> .ok, (m.load now id).2)
  save := save
  remove := remove
  live := live

end Memory

end Intranet.Session
