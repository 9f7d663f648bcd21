import Intranet.Number.Double

/-!
# JSON values

Values as the portal holds them. Numbers keep apart integers and binary floating point numbers. The
members of an object are a list. In a value that was read or put together member by member it is
sorted by name, each name once, so that equal objects are equal lists; a record that is printed as
it is has its members in an order of its own.
-/

namespace Intranet

/-- A JSON value. -/
inductive Json where
  | null
  | bool (b : Bool)
  | int (n : Int)
  | float (d : Double)
  | str (s : String)
  | arr (items : List Json)
  | obj (members : List (String × Json))
  deriving Inhabited, Repr

/-- The members of an object. -/
abbrev Members := List (String × Json)

namespace Members

/-- The value under a name. -/
def get? (key : String) : Members → Option Json
  | [] => none
  | (k, v) :: rest => if k = key then some v else get? key rest

/-- Puts a value under a name, in the place of an earlier one if there is one. -/
def insert (key : String) (value : Json) : Members → Members
  | [] => [(key, value)]
  | (k, v) :: rest =>
    if k = key then (key, value) :: rest
    else if key < k then (key, value) :: (k, v) :: rest
    else (k, v) :: insert key value rest

/-- The members that a list of pairs leaves when each pair is put in turn. -/
def ofList (pairs : List (String × Json)) : Members :=
  pairs.foldl (fun members (k, v) => Members.insert k v members) []

end Members

namespace Json

/-- The object with the given members, in any order. -/
def mk (pairs : List (String × Json)) : Json := .obj (Members.ofList pairs)

mutual

/-- A value with the members of all its objects sorted by name. -/
def sorted : Json → Json
  | .arr items => .arr (sortedItems items)
  | .obj members => .mk (sortedMembers members)
  | v => v

/-- Items with the members of their objects sorted. -/
def sortedItems : List Json → List Json
  | [] => []
  | v :: rest => sorted v :: sortedItems rest

/-- Members, in their order, with the members of the objects in them sorted. -/
def sortedMembers : List (String × Json) → List (String × Json)
  | [] => []
  | (k, v) :: rest => (k, sorted v) :: sortedMembers rest

end

/-- A natural number. -/
def nat (n : Nat) : Json := .int n

/-- A string or null. -/
def optStr : Option String → Json
  | none => .null
  | some s => .str s

/-- The text of a string value. -/
def str? : Json → Option String
  | .str s => some s
  | _ => none

/-- The truth value of a boolean. -/
def bool? : Json → Option Bool
  | .bool b => some b
  | _ => none

/-- Whether a value is null. -/
def isNull : Json → Bool
  | .null => true
  | _ => false

/-- A member of an object. -/
def get? (key : String) : Json → Option Json
  | .obj members => Members.get? key members
  | _ => none

end Json

end Intranet
