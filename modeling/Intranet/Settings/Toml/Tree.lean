import Intranet.Settings.Value

/-!
# Tables under construction

While a TOML document is read, every table remembers how it came into being, because that decides
what may be added to it: a table with a header of its own is closed to dotted keys, one that dotted
keys have made is closed to headers, and one that exists only because a longer header named it is
open to both.
-/

namespace Intranet.Settings.Toml

/-- How a table came into being. -/
inductive Origin where
  /-- By a header of its own, or by the braces around it. -/
  | stated
  /-- By a longer header. -/
  | implied
  /-- By dotted keys. -/
  | dotted
  deriving DecidableEq, Repr

/-- What stands under a name. -/
inductive Node where
  | leaf (value : Value)
  | table (origin : Origin) (fields : List (String × Node))
  /-- An array of tables, the latest one first. -/
  | tables (latestFirst : List (List (String × Node)))
  deriving Inhabited

/-- Named nodes in the order in which they came. -/
abbrev Branch := List (String × Node)

namespace Node

mutual

/-- The value that a node stands for. -/
def toValue : Node → Value
  | .leaf value => value
  | .table _ fields => .table (fieldsToValues fields)
  | .tables latestFirst => .list (tablesToValues latestFirst).reverse

/-- The values of named nodes. -/
def fieldsToValues : List (String × Node) → List (String × Value)
  | [] => []
  | (key, node) :: rest => (key, toValue node) :: fieldsToValues rest

/-- The values of tables. -/
def tablesToValues : List (List (String × Node)) → List Value
  | [] => []
  | fields :: rest => .table (fieldsToValues fields) :: tablesToValues rest

end

end Node

namespace Branch

/-- The node under a name. -/
def get? (key : String) : Branch → Option Node
  | [] => none
  | (k, node) :: rest => if k = key then some node else get? key rest

/-- Puts a node under a name, in the place of an earlier one if there is one. -/
def put (key : String) (node : Node) : Branch → Branch
  | [] => [(key, node)]
  | (k, n) :: rest => if k = key then (key, node) :: rest else (k, n) :: put key node rest

/-- The table of named nodes. -/
def toTable (b : Branch) : Table := Node.fieldsToValues b

/-- Changes the table at the end of a path. Tables that are missing on the way are made; of an
array of tables the latest one is meant. Dotted keys may not pass through a table that has been
stated. -/
def alter (made : Origin) (change : Origin → Branch → Option Branch) :
    List String → Origin → Branch → Option Branch
  | [], origin, b => change origin b
  | key :: path, _, b =>
    match get? key b with
    | none => (alter made change path made []).map fun fields => b ++ [(key, .table made fields)]
    | some (.leaf _) => none
    | some (.tables []) => none
    | some (.tables (latest :: before)) =>
      (alter made change path .stated latest).map fun latest =>
        put key (.tables (latest :: before)) b
    | some (.table origin fields) =>
      if made = .dotted ∧ origin = .stated then none
      else
        (alter made change path origin fields).map fun fields =>
          put key (.table origin fields) b

/-- Adds a value under a dotted key: the path of tables and the name in the last one. A name is
given once; a table made by dotted keys takes dotted keys only, and any other takes simple ones. -/
def addValue (path : List String) (name : String) (value : Value) : Branch → Option Branch :=
  alter .dotted (fun origin b =>
    if decide (origin = .dotted) = path.isEmpty then none
    else if (get? name b).isSome then none
    else some (b ++ [(name, .leaf value)])) path .stated

/-- States a table by its header. -/
def openTable (path : List String) (name : String) : Branch → Option Branch :=
  alter .implied (fun _ b =>
    match get? name b with
    | none => some (b ++ [(name, .table .stated [])])
    | some (.table .implied fields) => some (put name (.table .stated fields) b)
    | some _ => none) path .stated

/-- Adds a table to an array of tables by its header. -/
def addTable (path : List String) (name : String) : Branch → Option Branch :=
  alter .implied (fun _ b =>
    match get? name b with
    | none => some (b ++ [(name, .tables [[]])])
    | some (.tables latestFirst) => some (put name (.tables ([] :: latestFirst)) b)
    | some _ => none) path .stated

/-- Changes the table that a header names, which has been stated or is the latest of an array. -/
def within (header : List String) (change : Branch → Option Branch) : Branch → Option Branch :=
  alter .implied (fun _ b => change b) header .stated

end Branch

end Intranet.Settings.Toml
