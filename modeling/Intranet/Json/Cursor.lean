import Intranet.Json.Failure
import Intranet.Text.Utf8

/-!
# Reading with a place

A reader works on a cursor: the bytes still to be read with the line and the column reached. It
ends with a value or with a problem, and in both cases with the cursor it got to, because a problem
of shape is located where the enclosing brackets end.
-/

namespace Intranet.Json

/-- The bytes still to be read, and how far the reading has come. -/
structure Cursor where
  rest : List UInt8
  line : Nat
  column : Nat

namespace Cursor

/-- The beginning of a text. -/
def start (bytes : List UInt8) : Cursor := ⟨bytes, 1, 0⟩

/-- One byte further; at the end of the text it stays. -/
def forward : Cursor → Cursor
  | ⟨b :: rest, line, column⟩ =>
    if b = 10 then ⟨rest, line + 1, 0⟩ else ⟨rest, line, column + 1⟩
  | c => c

/-- Several bytes further. -/
def forwardBy : Nat → Cursor → Cursor
  | 0, c => c
  | n + 1, c => forwardBy n c.forward

/-- The next byte. -/
def peek? (c : Cursor) : Option UInt8 := c.rest.head?

/-- Past the blanks that JSON allows between tokens. -/
def skipBlanks (c : Cursor) : Cursor :=
  go c.rest c.line c.column
where
  go : List UInt8 → Nat → Nat → Cursor
    | [], line, column => ⟨[], line, column⟩
    | b :: rest, line, column =>
      if b = 10 then go rest (line + 1) 0
      else if b = 32 || b = 9 || b = 13 then go rest line (column + 1)
      else ⟨b :: rest, line, column⟩

end Cursor

/-- A failure in the making: a mismatch gets its place only when the value around it ends. -/
structure Problem where
  cause : Cause
  place : Option (Nat × Nat)
  path : List Step

/-- The end of a reading. -/
inductive Outcome (α : Type) where
  | done (value : α) (after : Cursor)
  | failed (problem : Problem) (after : Cursor)

/-- A reading from a cursor. -/
def Reader (α : Type) : Type := Cursor → Outcome α

namespace Reader

/-- Reads nothing. -/
@[inline] protected def pure (a : α) : Reader α := fun c => .done a c

/-- One reading after another. -/
@[inline] protected def bind (r : Reader α) (f : α → Reader β) : Reader β := fun c =>
  match r c with
  | .done a c => f a c
  | .failed p c => .failed p c

instance : Monad Reader where
  pure := Reader.pure
  bind := Reader.bind

end Reader

/-- Stops at the cursor. -/
def halt (m : Malformed) : Reader α := fun c =>
  .failed ⟨.malformed m, some (c.line, c.column), []⟩ c

/-- Stops before the next byte and counts that byte into the place. -/
def haltAhead (m : Malformed) : Reader α := fun c =>
  let ahead := c.forward
  .failed ⟨.malformed m, some (ahead.line, ahead.column), []⟩ c

/-- Stops for a mismatch whose place is settled later. -/
def refuse (m : Mismatch) : Reader α := fun c => .failed ⟨.mismatch m, none, []⟩ c

/-- The next byte, which stays. -/
@[inline] def peek : Reader (Option UInt8) := fun c => .done c.peek? c

/-- Takes one byte. -/
@[inline] def forward : Reader Unit := fun c => .done () c.forward

/-- Takes blanks. -/
@[inline] def blanks : Reader Unit := fun c => .done () c.skipBlanks

/-- How many bytes are left: no loop that takes a byte per round needs more rounds. -/
@[inline] def remaining : Reader Nat := fun c => .done c.rest.length c

/-- Settles the place of a mismatch: where the reading has come to. -/
def settled (r : Reader α) : Reader α := fun c =>
  match r c with
  | .done a c => .done a c
  | .failed p c => .failed { p with place := p.place.orElse fun _ => some (c.line, c.column) } c

/-- Adds a step to the path of a problem inside. -/
def within (step : Step) (r : Reader α) : Reader α := fun c =>
  match r c with
  | .done a c => .done a c
  | .failed p c => .failed { p with path := step :: p.path } c

/-- Reads the inside of brackets and then the closing one. The closing is read after a problem
inside too, for the sake of the place; the problem inside is the one reported. -/
def enclosed (inside : Reader α) (closing : Reader Unit) : Reader α := fun c =>
  match inside c with
  | .done a c =>
    match closing c with
    | .done () c => .done a c
    | .failed p c => .failed p c
  | .failed p c =>
    match closing c with
    | .done () c => .failed p c
    | .failed _ c => .failed p c

end Intranet.Json
