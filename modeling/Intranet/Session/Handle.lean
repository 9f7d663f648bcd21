import Intranet.Session.Record

/-!
# Session handles

A handle is what one request holds of its session. The request changes it freely; what has to be
done in the store afterwards is worked out once, as a plan.
-/

namespace Intranet.Session

/-- A session as one request holds it. -/
structure Handle where
  record : Record
  /-- The store holds the record under its identifier. -/
  persisted : Bool
  changed : Bool
  destroyed : Bool
  /-- An identifier that was given up and is to be removed from the store. -/
  replaced : Option Id
  deriving Repr, Inhabited

/-- What a commit has to do in the store. -/
inductive Plan where
  | nothing
  /-- Remove the identifier that was given up, then save. -/
  | save (record : Record) (replaced : Option Id)
  | remove (ids : List Id)
  deriving Repr

namespace Handle

/-- The handle of a session that was just started. -/
def fresh (id : Id) (expiresAt : Instant) : Handle :=
  ⟨⟨id, none, none, [], expiresAt⟩, false, false, false, none⟩

/-- The handle of a record from the store. -/
def ofRecord (record : Record) : Handle := ⟨record, true, false, false, none⟩

/-! ## What a handle shows -/

/-- The identifier. -/
def id (h : Handle) : Id := h.record.id

/-- Who is signed in. -/
def principal (h : Handle) : Option Principal :=
  if h.destroyed then none else h.record.principal

/-- The credential for the document backend. -/
def credential (h : Handle) : Option String :=
  if h.destroyed then none else h.record.credential

/-- A claim. -/
def claim (h : Handle) (key : String) : Option Json := Members.get? key h.record.claims

/-- Whether the session is one of an administrator: the principal or a claim says so. -/
def isAdmin (h : Handle) : Bool :=
  match h.principal with
  | some p => p.isAdmin || ((h.claim adminClaim).bind Json.bool?).getD false
  | none => false

/-! ## Changes -/

/-- Sets a claim. -/
def setClaim (key : String) (value : Json) (h : Handle) : Handle :=
  { h with
    record := { h.record with claims := Members.insert key value h.record.claims }
    changed := true }

/-- Signs a principal in, under a new identifier: one that was known before signing in must not be
of use afterwards. -/
def login (newId : Id) (principal : Principal) (credential : Option String)
    (h : Handle) : Handle :=
  { record :=
      { h.record with
        id := newId
        claims := Members.insert adminClaim (.bool principal.isAdmin) h.record.claims
        principal := some principal
        credential := credential }
    replaced := if h.persisted then some h.record.id else h.replaced
    persisted := false
    changed := true
    destroyed := false }

/-- Marks the session for removal. -/
def destroy (h : Handle) : Handle := { h with destroyed := true }

/-- What has to be done in the store, and the handle once it is done. -/
def takePlan (h : Handle) : Plan × Handle :=
  if h.destroyed then
    (.remove ((if h.persisted then [h.record.id] else []) ++ h.replaced.toList),
      { h with persisted := false, changed := false, replaced := none })
  else if h.changed then
    (.save h.record h.replaced, { h with changed := false, persisted := true, replaced := none })
  else (.nothing, h)

end Handle

end Intranet.Session
