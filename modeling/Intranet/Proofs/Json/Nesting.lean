import Intranet.Json.Basic

/-!
# How deep values are

The lists and objects that are open at once inside a value. What reads a value, and what prints
one, goes as deep as that.
-/

namespace Intranet

namespace Json

mutual

/-- How many lists and objects are open at once inside a value, at most. A scalar has none. -/
def nesting : Json → Nat
  | arr items => nestingItems items + 1
  | obj members => nestingMembers members + 1
  | _ => 0

/-- The deepest nesting of an item of a list. -/
def nestingItems : List Json → Nat
  | [] => 0
  | item :: rest => max (nesting item) (nestingItems rest)

/-- The deepest nesting of a member of an object. -/
def nestingMembers : List (String × Json) → Nat
  | [] => 0
  | (_, value) :: rest => max (nesting value) (nestingMembers rest)

end

theorem nestingItems_le {n : Nat} {items : List Json} :
    nestingItems items ≤ n ↔ ∀ j ∈ items, j.nesting ≤ n := by
  induction items with
  | nil => simp [nestingItems]
  | cons j items ih => rw [nestingItems, Nat.max_le, ih, List.forall_mem_cons]

theorem nestingMembers_le {n : Nat} {members : Members} :
    nestingMembers members ≤ n ↔ ∀ m ∈ members, m.2.nesting ≤ n := by
  induction members with
  | nil => simp [nestingMembers]
  | cons m members ih => rw [nestingMembers, Nat.max_le, ih, List.forall_mem_cons]

end Json

end Intranet
