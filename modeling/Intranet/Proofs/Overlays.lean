import Intranet.Settings.Convert
import Mathlib.Data.List.Induction

/-!
# Values written over one another

What is found under a name after several values were written one over the other. Tables are merged
name by name; whatever is no table takes the place of all that was there before.

* `Value.write_eq_overlay` — writing under a path is writing a value over another one;
* `Value.group_writeAll` — what is under a name after all entries of a source were written is what
  its values, written over one another, come to;
* `Value.get?_merged` — a name in values that are merged has what the highest table with that name
  gives it;
* `said?`, `get?_section_eq_said?` — the same for a section as it is read, which need not be a
  table.
-/

namespace Intranet.Settings

/-! ## Last values of tables -/

/-- The last value under a name. -/
def Table.last? (name : String) : Table → Option Value
  | [] => none
  | (k, v) :: rest => (last? name rest).or (if k = name then some v else none)

namespace Value

/-- The value is a table. -/
def isTable : Value → Bool
  | .table _ => true
  | _ => false

theorem exists_fields_of_isTable {v : Value} (h : v.isTable = true) :
    ∃ fields, v = .table fields := by
  cases v with
  | table fields => exact ⟨fields, rfl⟩
  | nothing | bool _ | int _ | float _ | str _ | list _ => cases h

theorem fields_of_not_isTable {v : Value} (h : v.isTable = false) : v.fields = [] := by
  cases v with
  | table fields => cases h
  | nothing | bool _ | int _ | float _ | str _ | list _ => rfl

/-- What is no table takes the place of everything. -/
theorem overlay_of_not_isTable {v : Value} (h : v.isTable = false) (old : Value) :
    v.overlay old = v := by
  cases v with
  | table fields => cases h
  | nothing | bool _ | int _ | float _ | str _ | list _ => rw [overlay]

theorem overlay_table (fields : Table) (old : Value) :
    (table fields).overlay old = .table (overlayFields fields old.fields) := by
  rw [overlay]

/-- After a table was written over another one, a name has the last value of the one above, written
over something, or if there is none what it had before. -/
theorem get?_overlayFields (name : String) (fields old : Table) :
    ∃ o, Table.get? name (overlayFields fields old) =
      ((Table.last? name fields).map (·.overlay o)).or (Table.get? name old) := by
  induction fields generalizing old with
  | nil => exact ⟨.nothing, by rw [overlayFields]; rfl⟩
  | cons field rest ih =>
    obtain ⟨k, v⟩ := field
    obtain ⟨o, ho⟩ := ih (Table.put k (overlay v ((Table.get? k old).getD .nothing)) old)
    rw [overlayFields, ho, Table.last?]
    cases Table.last? name rest with
    | some x => exact ⟨o, rfl⟩
    | none =>
      by_cases hk : k = name
      · subst hk
        exact ⟨(Table.get? k old).getD .nothing, by simp⟩
      · exact ⟨.nothing, by simp [hk, Ne.symm hk]⟩

/-! ## Paths -/

/-- A value under a path of names, and nothing else. -/
def under : List String → Value → Value
  | [], v => v
  | key :: path, v => .table [(key, under path v)]

/-- Writing under a path is writing over what is there. -/
theorem write_eq_overlay (path : List String) (v old : Value) :
    write path v old = (under path v).overlay old := by
  induction path generalizing old with
  | nil => rfl
  | cons key path ih => rw [write, under, overlay_table, overlayFields, overlayFields, ih]

/-! ## Merged values -/

/-- Values written over one another, the highest first. -/
def merged : List Value → Value
  | [] => .nothing
  | v :: below => v.overlay (merged below)

/-- A name in merged values has what the highest table with that name gives it, where tables below
a value that is none do not count. This is for names with a plain value; tables would be merged in
their turn. -/
theorem get?_merged {name : String} {vs : List Value}
    (hplain : ∀ fields, Table.get? name (merged vs).fields ≠ some (.table fields)) :
    Table.get? name (merged vs).fields =
      (vs.takeWhile isTable).findSome? fun v => Table.last? name v.fields := by
  induction vs with
  | nil => rfl
  | cons v below ih =>
    cases hv : v.isTable with
    | false =>
      rw [merged, overlay_of_not_isTable hv, fields_of_not_isTable hv,
        List.takeWhile_cons_of_neg (by simp [hv])]
      rfl
    | true =>
      obtain ⟨fields, rfl⟩ := exists_fields_of_isTable hv
      have hfields : (merged (.table fields :: below)).fields =
          overlayFields fields (merged below).fields := by
        rw [merged, overlay_table]
        rfl
      obtain ⟨o, ho⟩ := get?_overlayFields name fields (merged below).fields
      rw [hfields, ho] at hplain
      rw [hfields, ho, List.takeWhile_cons_of_pos hv, List.findSome?_cons, Value.fields]
      cases hlast : Table.last? name fields with
      | none =>
        rw [hlast] at hplain
        exact ih hplain
      | some x =>
        -- A table would be merged with what is under the name below, but the name has a plain
        -- value.
        rw [hlast] at hplain
        cases hx : x.isTable with
        | false =>
          rw [Option.map_some, overlay_of_not_isTable hx]
          rfl
        | true =>
          obtain ⟨inner, rfl⟩ := exists_fields_of_isTable hx
          rw [Option.map_some, overlay_table] at hplain
          exact absurd rfl (hplain _)

end Value

open Value

/-! ## Sources -/

/-- What an entry of a source says of a group of names, if anything. -/
def inGroup? (group : String) (entry : String × Value) : Option Value :=
  match pathOf entry.1 with
  | first :: path => if first = group then some (under path entry.2) else none
  | [] => none

/-- The values that sources give for a group, the highest first. -/
def groupValues (group : String) (sources : List Table) : List Value :=
  sources.flatten.reverse.filterMap (inGroup? group)

theorem pathOf_ne_nil (key : String) : pathOf key ≠ [] := by
  unfold pathOf
  dsimp only
  split
  · exact fun h => List.splitOn_ne_nil '.' key.toList (List.map_eq_nil_iff.1 h)
  · exact List.cons_ne_nil _ _

/-- An entry of the group is written over what the group was, and any other leaves it alone. -/
theorem group_write (group : String) (entry : String × Value) (old : Value) :
    (Table.get? group (write (pathOf entry.1) entry.2 old).fields).getD .nothing =
      ((inGroup? group entry).map (·.overlay ((Table.get? group old.fields).getD .nothing))).getD
        ((Table.get? group old.fields).getD .nothing) := by
  unfold inGroup?
  cases hpath : pathOf entry.1 with
  | nil => exact absurd hpath (pathOf_ne_nil _)
  | cons first path =>
    dsimp only [write, fields]
    by_cases hfirst : first = group
    · subst hfirst
      rw [if_pos rfl, Table.get?_put_self, write_eq_overlay]
      rfl
    · rw [if_neg hfirst, Table.get?_put_of_ne (Ne.symm hfirst)]
      rfl

/-- After all entries of a source were written, a group is what the values for it come to. The
entry written last is the highest, so the induction takes entries off the end. -/
theorem group_writeAll (group : String) (source : Table) :
    (Table.get? group (writeAll source (.table [])).fields).getD .nothing =
      merged (source.reverse.filterMap (inGroup? group)) := by
  induction source using List.reverseRecOn with
  | nil => rfl
  | append_singleton source entry ih =>
    have hwrite : writeAll (source ++ [entry]) (.table []) =
        write (pathOf entry.1) entry.2 (writeAll source (.table [])) := by
      rw [writeAll, List.foldl_append]
      rfl
    rw [hwrite, group_write, ih, List.reverse_concat, List.filterMap_cons]
    cases inGroup? group entry <;> rfl

/-! ## Sections -/

/-- What values for a section, the highest first, say of one of its names: what the first table
with that name gives it. Tables below a value that is none do not count, and if the highest value
is none, only it counts. -/
def said? (names : List String) (name : String) : List Value → Option Value
  | [] => none
  | v :: below =>
    if v.isTable then ((v :: below).takeWhile isTable).findSome? fun t => Table.last? name t.fields
    else (v.section? names).bind (Table.get? name)

/-- A plain value in a section of merged values is what they say of its name. -/
theorem get?_section_eq_said? {names : List String} {name : String} {vs : List Value}
    {fields : Table} (hsection : (merged vs).section? names = some fields)
    (hplain : ∀ inner, Table.get? name fields ≠ some (.table inner)) :
    Table.get? name fields = said? names name vs := by
  cases vs with
  | nil => cases hsection
  | cons v below =>
    cases hv : v.isTable with
    | false =>
      rw [merged, overlay_of_not_isTable hv] at hsection
      rw [said?, hv, hsection]
      rfl
    | true =>
      have hfields : fields = (merged (v :: below)).fields := by
        obtain ⟨top, rfl⟩ := exists_fields_of_isTable hv
        rw [merged, overlay_table] at hsection ⊢
        exact (Option.some.inj hsection).symm
      rw [said?, if_pos hv]
      subst hfields
      exact get?_merged hplain

/-- Tables that do not have the name leave what is said to the values below, unless they stand on
something that is no table. -/
theorem said?_append {names : List String} {name : String} {upper lower : List Value}
    (hupper : ∀ v ∈ upper, v.isTable = true)
    (hlower : upper = [] ∨ ∀ v ∈ lower.head?, v.isTable = true) :
    said? names name (upper ++ lower) =
      (upper.findSome? fun v => Table.last? name v.fields).or (said? names name lower) := by
  rcases hlower with rfl | hlower
  · rfl
  · have hlow : said? names name lower =
        (lower.takeWhile isTable).findSome? fun v => Table.last? name v.fields := by
      cases lower with
      | nil => rfl
      | cons v below => rw [said?, if_pos (hlower v rfl)]
    cases upper with
    | nil => rfl
    | cons u upper =>
      rw [List.cons_append, said?, if_pos (hupper u List.mem_cons_self), ← List.cons_append,
        List.takeWhile_append_of_pos hupper, List.findSome?_append, hlow]

/-- On top of something that is no table, only tables count. -/
theorem said?_append_of_not_isTable {names : List String} {name : String}
    {upper below : List Value} {v : Value} (hupper : ∀ u ∈ upper, u.isTable = true)
    (hne : upper ≠ []) (hv : v.isTable = false) :
    said? names name (upper ++ v :: below) =
      upper.findSome? fun u => Table.last? name u.fields := by
  obtain ⟨u, rest, rfl⟩ := List.exists_cons_of_ne_nil hne
  rw [List.cons_append, said?, if_pos (hupper u List.mem_cons_self), ← List.cons_append,
    List.takeWhile_append_of_pos hupper, List.takeWhile_cons_of_neg (by simp [hv]),
    List.append_nil]

end Intranet.Settings
