import Intranet.Json.Basic

/-!
# Configured values

What a source of settings says: plain values, lists, and tables of named values. `Value.write` puts
a value under a path of names; a table is written over an earlier one field by field, every other
value takes the place of what was there.
-/

namespace Intranet.Settings

/-- A value as a source of settings gives it. -/
inductive Value where
  | nothing
  | bool (b : Bool)
  | int (n : Int)
  | float (d : Double)
  | str (s : String)
  | list (items : List Value)
  | table (fields : List (String × Value))
  deriving Inhabited, Repr

/-- The named values of a table. -/
abbrev Table := List (String × Value)

namespace Table

/-- The value under a name. -/
def get? (key : String) : Table → Option Value
  | [] => none
  | (k, v) :: rest => if k = key then some v else get? key rest

/-- Puts a value under a name, in the place of an earlier one if there is one. -/
def put (key : String) (value : Value) : Table → Table
  | [] => [(key, value)]
  | (k, v) :: rest => if k = key then (key, value) :: rest else (k, v) :: put key value rest

@[simp] theorem get?_put_self (key : String) (value : Value) (t : Table) :
    get? key (put key value t) = some value := by
  induction t with
  | nil => simp [put, get?]
  | cons f rest ih =>
    obtain ⟨k, v⟩ := f
    by_cases h : k = key <;> simp [put, get?, h, ih]

@[simp] theorem get?_put_of_ne {key other : String} (h : other ≠ key) (value : Value) (t : Table) :
    get? other (put key value t) = get? other t := by
  induction t with
  | nil => simp [put, get?, Ne.symm h]
  | cons f rest ih =>
    obtain ⟨k, v⟩ := f
    rw [put]
    split
    · next hk => subst hk; simp [get?, Ne.symm h]
    · simp [get?, ih]

end Table

namespace Value

/-- The fields of a table; every other value has none. -/
def fields : Value → Table
  | .table fields => fields
  | _ => []

mutual

/-- A value written over an earlier one. -/
def overlay : Value → Value → Value
  | .table fields, old => .table (overlayFields fields old.fields)
  | .nothing, _ => .nothing
  | .bool b, _ => .bool b
  | .int n, _ => .int n
  | .float d, _ => .float d
  | .str s, _ => .str s
  | .list items, _ => .list items

/-- Fields written one by one over those of an earlier table. -/
def overlayFields : List (String × Value) → Table → Table
  | [], old => old
  | (key, value) :: rest, old =>
    overlayFields rest (Table.put key (overlay value ((Table.get? key old).getD .nothing)) old)

end

/-- Writes a value under a path of names. Whatever stands in the way of the path gives way to a
table. -/
def write : List String → Value → Value → Value
  | [], value, old => value.overlay old
  | key :: path, value, old =>
    .table
      (Table.put key (write path value ((Table.get? key old.fields).getD .nothing)) old.fields)

/-- The value under a path of names. -/
def find? : List String → Value → Option Value
  | [], value => some value
  | key :: path, value => (Table.get? key value.fields).bind (find? path)

end Value

/-! ## JSON -/

namespace Value

mutual

/-- The value that a JSON value stands for. -/
def ofJson : Json → Value
  | .null => .nothing
  | .bool b => .bool b
  | .int n => .int n
  | .float d => .float d
  | .str s => .str s
  | .arr items => .list (ofJsonItems items)
  | .obj members => .table (ofJsonMembers members)

/-- The values of the items of an array. -/
def ofJsonItems : List Json → List Value
  | [] => []
  | item :: rest => ofJson item :: ofJsonItems rest

/-- The values of the members of an object. -/
def ofJsonMembers : List (String × Json) → List (String × Value)
  | [] => []
  | (key, value) :: rest => (key, ofJson value) :: ofJsonMembers rest

end

mutual

/-- A value as JSON. -/
def toJson : Value → Json
  | .nothing => .null
  | .bool b => .bool b
  | .int n => .int n
  | .float d => .float d
  | .str s => .str s
  | .list items => .arr (toJsonItems items)
  | .table fields => .mk (toJsonFields fields)

/-- The items of a list as JSON. -/
def toJsonItems : List Value → List Json
  | [] => []
  | item :: rest => toJson item :: toJsonItems rest

/-- The fields of a table as JSON. -/
def toJsonFields : List (String × Value) → List (String × Json)
  | [] => []
  | (key, value) :: rest => (key, toJson value) :: toJsonFields rest

end

end Value

/-! ## Paths -/

/-- A character of a name in a path. -/
def isPathChar (c : Char) : Bool := c.isAlphanum || c = '_' || c = '-'

/-- The path that a key stands for: its parts between points. A key that is no such path stands for
itself. -/
def pathOf (key : String) : List String :=
  let parts := key.toList.splitOn '.'
  if parts.all fun part => !part.isEmpty && part.all isPathChar then parts.map String.ofList
  else [key]

/-- Writes the values of a source in turn, each under the path that its key stands for. -/
def writeAll (source : Table) (old : Value) : Value :=
  source.foldl (fun value (key, v) => Value.write (pathOf key) v value) old

end Intranet.Settings
