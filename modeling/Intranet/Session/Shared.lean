import Intranet.Session.Store

/-!
# Sessions on a shared server

A store for several processes: records are kept as texts on a server that knows keys, texts and
times to live. The server drops what has expired by itself. What a store asks is a command, what it
makes of the answer is a function of the answer alone.
-/

namespace Intranet.Session.Shared

/-! ## Commands and answers -/

/-- The key under which the record of an identifier is kept. -/
def key (id : Id) : String := "sess:" ++ id.text

/-- What the server is asked. -/
inductive Command where
  | get (key : String)
  /-- Keeps a text under a key for so many seconds. -/
  | setFor (key text : String) (seconds : Nat)
  | delete (key : String)
  deriving DecidableEq, Repr

/-- The words of a command as they are sent. -/
def Command.words : Command → List String
  | get key => ["GET", key]
  | setFor key text seconds => ["SETEX", key, toString seconds, text]
  | delete key => ["DEL", key]

/-- What the server answers. -/
inductive Answer where
  | text (s : String)
  /-- Bytes that are no text. -/
  | garbled
  | absent
  | done
  /-- An error: a code, and mostly a text after it. -/
  | refused (error : String)
  deriving DecidableEq, Repr

/-- The reason that is given for an error of the server. Two codes are known by names of their
own. -/
def refusalText (error : String) : String :=
  match error.toList.span (· ≠ ' ') with
  | (code, rest) =>
    let known (name : String) :=
      "An error was signalled by the server - " ++ name ++
        (if rest.isEmpty then "" else ": " ++ String.ofList (rest.drop 1))
    if code = "ERR".toList then known "ResponseError"
    else if code = "READONLY".toList then known "ReadOnly"
    else
      String.ofList code ++ ": " ++
        (if rest.isEmpty then "Unknown extension error encountered"
        else String.ofList (rest.drop 1))

/-- The reason that is given for bytes that are no text. -/
def garbledText : String := "Cannot convert from UTF-8- TypeError"

/-- The reason that is given for an address that names no server. -/
def badAddress : String := "Redis URL did not parse- InvalidClientConfig"

/-- What is written down for such an address. -/
def badAddressLine : Line := ⟨.error, "Invalid session store URL: " ++ badAddress⟩

/-- The command that asks for the record of an identifier. -/
def loading (id : Id) : Command := .get (key id)

/-- The command that keeps a record for so many milliseconds. A time below a second counts as
one. -/
def saving (record : Record) (ttl : Nat) : Command :=
  .setFor (key record.id) record.text (max (ttl / 1000) 1)

/-- The command that removes what is kept for an identifier. -/
def removing (id : Id) : Command := .delete (key id)

/-- The record that a text stands for. -/
def recordOfText (text : String) : Except StoreError Record :=
  (Record.ofText text).mapError fun f => .encoding f.located

/-- The record that an answer holds. -/
def loaded : Answer → Except StoreError (Option Record)
  | .text s => (recordOfText s).map some
  | .garbled => .error (.backend garbledText)
  | .absent => .ok none
  | .done => (recordOfText "OK").map some
  | .refused error => .error (.backend (refusalText error))

/-- Whether a command was carried out. -/
def carriedOut : Answer → Except StoreError Unit
  | .refused error => .error (.backend (refusalText error))
  | _ => .ok ()

/-! ## The server -/

/-- A text with the end of its time, in milliseconds since 1970. -/
structure Kept where
  text : String
  deadline : Nat
  deriving DecidableEq, Repr

/-- The texts on a server under their keys, each key once. -/
structure Server where
  entries : List (String × Kept)
  deriving DecidableEq, Repr

namespace Server

/-- A server that keeps nothing. -/
def empty : Server := ⟨[]⟩

instance : Inhabited Server := ⟨empty⟩

/-- The text under a key, if its time has not ended. -/
def get? (now : Nat) (key : String) (s : Server) : Option String :=
  match s.entries.lookup key with
  | some kept => if now < kept.deadline then some kept.text else none
  | none => none

/-- Drops what is under a key. -/
def delete (key : String) (s : Server) : Server := ⟨s.entries.filter fun (k, _) => k ≠ key⟩

/-- Keeps a text under a key for so many seconds from now on, in place of an earlier one. -/
def setFor (now : Nat) (key text : String) (seconds : Nat) (s : Server) : Server :=
  ⟨(key, ⟨text, now + seconds * 1000⟩) :: (s.delete key).entries⟩

/-- Carries a command out. -/
def run (now : Nat) (c : Command) (s : Server) : Answer × Server :=
  match c with
  | .get key =>
    match s.get? now key with
    | some text => (.text text, s)
    | none => (.absent, s)
  | .setFor key text seconds => (.done, s.setFor now key text seconds)
  | .delete key => (.done, s.delete key)

/-- How many texts have time left. -/
def live (now : Nat) (s : Server) : Nat := s.entries.countP fun (_, kept) => now < kept.deadline

end Server

/-- The store on a server. -/
def store : Store Server where
  load now id s :=
    let (answer, s) := s.run now (loading id)
    (loaded answer, s)
  save now record ttl s := .ok (s.run now (saving record ttl)).2
  remove id s := s.delete (key id)
  live := Server.live

end Intranet.Session.Shared
