import Intranet.Proofs.Graphql.Comments
import Intranet.Proofs.Graphql.Grammar
import Intranet.Proofs.Json.Members
import Intranet.Proofs.Json.Nesting

/-!
# Names and nesting of what is read

Every name that is read is a name of the language, and no value that is read has more lists and
objects open at once than its reader allows.

Main results:

* `valueRun_eq_ok`: what a value that is read can be;
* `literal_wellFormed`: a value is well formed once scalars are filled in for its variables;
* `document_wellFormed`: so is a root field with all its values, and its names are names.
-/

namespace Intranet

/-! ## Well-formed values -/

namespace Json

mutual

/-- The keys of all objects in a value. -/
def keys : Json → List String
  | arr items => keysItems items
  | obj members => keysMembers members
  | _ => []

/-- The keys of all objects in the items of a list. -/
def keysItems : List Json → List String
  | [] => []
  | item :: rest => keys item ++ keysItems rest

/-- The keys of an object and of all objects in it. -/
def keysMembers : List (String × Json) → List String
  | [] => []
  | (key, value) :: rest => key :: (keys value ++ keysMembers rest)

end

theorem mem_keysItems {k : String} {items : List Json} :
    k ∈ keysItems items ↔ ∃ j ∈ items, k ∈ j.keys := by
  induction items with
  | nil => simp [keysItems]
  | cons j items ih => simp [keysItems, ih]

theorem mem_keysMembers {k : String} {members : Members} :
    k ∈ keysMembers members ↔ ∃ m ∈ members, k = m.1 ∨ k ∈ m.2.keys := by
  induction members with
  | nil => simp [keysMembers]
  | cons m members ih => simp [keysMembers, ih, or_assoc]

/-- The keys are names, and at most so many lists and objects are open at once. -/
structure WellFormed (n : Nat) (j : Json) : Prop where
  nesting : j.nesting ≤ n
  keys : ∀ k ∈ j.keys, Graphql.IsName k

theorem WellFormed.scalar {j : Json} (h : j.nesting = 0) (n : Nat) : j.WellFormed n where
  nesting := by
    rw [h]
    exact Nat.zero_le n
  keys := by
    intro k hk
    cases j with
    | arr items | obj members => simp [Json.nesting] at h
    | _ => cases hk

theorem WellFormed.arr {n : Nat} {items : List Json} (h : ∀ j ∈ items, j.WellFormed n) :
    (arr items).WellFormed (n + 1) where
  nesting := by
    apply Nat.succ_le_succ
    apply nestingItems_le.mpr
    intro j hj
    exact (h j hj).nesting
  keys := by
    intro k hk
    obtain ⟨j, hj, hk⟩ := mem_keysItems.mp hk
    exact (h j hj).keys k hk

theorem WellFormed.obj {n : Nat} {members : Members}
    (h : ∀ m ∈ members, Graphql.IsName m.1 ∧ m.2.WellFormed n) :
    (obj members).WellFormed (n + 1) where
  nesting := by
    apply Nat.succ_le_succ
    apply nestingMembers_le.mpr
    intro m hm
    exact (h m hm).2.nesting
  keys := by
    intro k hk
    obtain ⟨m, hm, rfl | hk⟩ := mem_keysMembers.mp hk
    · exact (h m hm).1
    · exact (h m hm).2.keys k hk

end Json

namespace Graphql

/-- A root field whose names are names of the language and whose values are well formed. -/
structure RootField.WellFormed (r : RootField) : Prop where
  name : IsName r.name
  aliased : ∀ a ∈ r.aliased, IsName a
  arguments : ∀ m ∈ r.arguments, IsName m.1 ∧ m.2.WellFormed maxDepth

/-! ## What is read -/

/-- What is read for a name is one. -/
theorem isName_of_name {cs rest : List Char} {n : String} (h : name cs = .ok (n, rest)) :
    IsName n := by
  unfold name at h
  split at h
  · cases h
  · next c tail hs =>
    split at h
    · next hc =>
      cases h
      refine ⟨c, tail.takeWhile isNameChar, String.toList_ofList, hc, ?_⟩
      exact List.all_eq_true.mp List.all_takeWhile
    · cases h

section Items

variable {α : Type} {p : Taker α} {P : α → Prop}

/-- What holds of every item that can be read holds of the items of a list. -/
theorem Taker.forall_of_manyOnto (hp : ∀ {cs rest a}, p.run cs = .ok (a, rest) → P a)
    {close : Char} {done as : List α} {cs rest : List Char} (hdone : ∀ a ∈ done, P a)
    (h : p.manyOnto close done cs = .ok (as, rest)) : ∀ a ∈ as, P a := by
  fun_induction Taker.manyOnto p close done cs with
  | case1 done cs r he =>
    cases h
    intro a ha
    exact hdone a (List.mem_reverse.mp ha)
  | case2 => cases h
  | case3 done cs he a r hr ih =>
    apply ih _ h
    rw [List.forall_mem_cons]
    exact ⟨hp hr, hdone⟩

theorem Taker.forall_of_many (hp : ∀ {cs rest a}, p.run cs = .ok (a, rest) → P a) {close : Char}
    {as : List α} {cs rest : List Char} (h : p.many close cs = .ok (as, rest)) : ∀ a ∈ as, P a :=
  forall_of_manyOnto hp (by simp) h

/-- A pair has a name, and under it what its reader reads. -/
theorem of_pair (hp : ∀ {cs rest a}, p.run cs = .ok (a, rest) → P a) {m : String × α}
    {cs rest : List Char} (h : (pair p).run cs = .ok (m, rest)) : IsName m.1 ∧ P m.2 := by
  change pairRun p cs = _ at h
  unfold pairRun at h
  split at h
  · cases h
  · next key r hn =>
    split at h
    · cases h
    · split at h
      · cases h
      · next a r hr =>
        cases h
        exact ⟨isName_of_name hn, hp hr⟩

end Items

namespace Literal

/-- A literal other than a list or an object. -/
def IsLeaf : Literal → Prop
  | list _ | object _ => False
  | _ => True

theorem isLeaf_ofNumber (n : Number) : (ofNumber n).IsLeaf := by
  cases n <;> trivial

theorem isLeaf_ofName (n : String) : (ofName n).IsLeaf := by
  unfold ofName
  repeat' split
  all_goals trivial

/-- With scalars for its variables the value of a leaf is a scalar. -/
theorem IsLeaf.nesting_resolve {given : Members} (hg : ∀ m ∈ given, m.2.nesting = 0) {l : Literal}
    (h : l.IsLeaf) : (l.resolve given).nesting = 0 := by
  cases l with
  | list items => cases h
  | object fields => cases h
  | ref n =>
    rw [resolve]
    cases hv : Members.get? n given with
    | none => rfl
    | some v => exact hg _ (Members.mem_of_get? hv)
  | _ => rfl

end Literal

/-- A value that is read is a list, an object or a leaf. -/
theorem valueRun_eq_ok {inner : Option (Taker Literal)} {cs rest : List Char} {l : Literal}
    (h : valueRun inner cs = .ok (l, rest)) :
    (∃ p items r, inner = some p ∧ skipIgnored cs = '[' :: r ∧ p.many ']' r = .ok (items, rest) ∧
      l = .list items) ∨
    (∃ p fields r, inner = some p ∧ skipIgnored cs = '\x7b' :: r ∧
      (pair p).many '\x7d' r = .ok (fields, rest) ∧ l = .object fields) ∨ l.IsLeaf := by
  unfold valueRun at h
  split at h
  · cases h
  · next c r hs =>
    repeat' split at h
    all_goals try cases h
    all_goals subst_vars
    · obtain ⟨⟨items, r'⟩, hr, hl⟩ := eq_ok_of_map h
      cases hl
      exact .inl ⟨_, items, r, rfl, hs, hr, rfl⟩
    · obtain ⟨⟨fields, r'⟩, hr, hl⟩ := eq_ok_of_map h
      cases hl
      exact .inr (.inl ⟨_, fields, r, rfl, hs, hr, rfl⟩)
    all_goals
      obtain ⟨v, -, hl⟩ := eq_ok_of_map h
      cases hl
    · exact .inr (.inr trivial)
    · exact .inr (.inr trivial)
    · exact .inr (.inr (Literal.isLeaf_ofNumber _))
    · exact .inr (.inr (Literal.isLeaf_ofName _))

/-- A value is well formed up to the depth that its reader allows. -/
theorem literal_wellFormed {given : Members} (hg : ∀ m ∈ given, m.2.nesting = 0) {n : Nat}
    {cs rest : List Char} {l : Literal} (h : (literal n).run cs = .ok (l, rest)) :
    (l.resolve given).WellFormed n := by
  induction n generalizing cs rest l with
  | zero =>
    change valueRun none cs = _ at h
    rcases valueRun_eq_ok h with ⟨p, _, _, hp, _⟩ | ⟨p, _, _, hp, _⟩ | hleaf
    · cases hp
    · cases hp
    · exact .scalar (hleaf.nesting_resolve hg) 0
  | succ n ih =>
    change valueRun (some (literal n)) cs = _ at h
    rcases valueRun_eq_ok h with ⟨p, items, r, hp, -, hmany, rfl⟩ |
      ⟨p, fields, r, hp, -, hmany, rfl⟩ | hleaf
    · cases hp
      have hitems :=
        Taker.forall_of_many (P := fun l : Literal => (l.resolve given).WellFormed n) ih hmany
      rw [Literal.resolve, resolveItems_eq_map]
      apply Json.WellFormed.arr
      intro j hj
      obtain ⟨l, hl, rfl⟩ := List.mem_map.mp hj
      exact hitems l hl
    · cases hp
      have hfields := Taker.forall_of_many
        (of_pair (P := fun l : Literal => (l.resolve given).WellFormed n) ih) hmany
      rw [Literal.resolve, resolveFields_eq_map]
      apply Json.WellFormed.obj
      intro m hm
      obtain ⟨f, hf, rfl⟩ := List.mem_map.mp (Members.mem_of_mem_ofList hm)
      exact hfields f hf
    · exact .scalar (hleaf.nesting_resolve hg) (n + 1)

/-! ## Root fields -/

section Fields

variable {cs rest : List Char}

theorem isName_of_fieldName {f : Option String × String} (h : fieldName cs = .ok (f, rest)) :
    IsName f.2 ∧ ∀ a ∈ f.1, IsName a := by
  rw [fieldName_eq] at h
  cases hn : name cs with
  | error e =>
    rw [hn] at h
    cases h
  | ok r =>
    obtain ⟨first, r⟩ := r
    have hfirst := isName_of_name hn
    rw [hn] at h
    change (eat? ':' r).elim _ _ = _ at h
    cases hc : eat? ':' r with
    | none =>
      rw [hc] at h
      cases h
      exact ⟨hfirst, by simp⟩
    | some r' =>
      rw [hc] at h
      obtain ⟨⟨second, r''⟩, hs, he⟩ := eq_ok_of_map h
      cases he
      refine ⟨isName_of_name hs, ?_⟩
      intro a ha
      cases ha
      exact hfirst

theorem fieldArguments_wellFormed {given : Members} (hg : ∀ m ∈ given, m.2.nesting = 0)
    {args : List (String × Literal)} (h : fieldArguments cs = .ok (args, rest)) :
    ∀ m ∈ args, IsName m.1 ∧ (m.2.resolve given).WellFormed maxDepth := by
  unfold fieldArguments at h
  split at h
  · exact Taker.forall_of_many (of_pair (P := fun l : Literal =>
      (l.resolve given).WellFormed maxDepth) (literal_wellFormed hg)) h
  · cases h
    simp

theorem rootField_wellFormed {given : Members} (hg : ∀ m ∈ given, m.2.nesting = 0)
    {op : Operation} {s : Selection} (h : rootField op cs = .ok s) :
    (s.resolve given).WellFormed := by
  rw [rootField_eq] at h
  obtain ⟨r, -, h⟩ := proceed_eq_ok h
  split at h
  · cases h
  · obtain ⟨⟨f, r⟩, hf, h⟩ := proceed_eq_ok h
    obtain ⟨⟨args, r⟩, hargs, h⟩ := proceed_eq_ok h
    obtain ⟨r, -, h⟩ := proceed_eq_ok h
    obtain ⟨r, -, h⟩ := proceed_eq_ok h
    obtain rfl := eq_of_finish h
    obtain ⟨hname, haliased⟩ := isName_of_fieldName hf
    refine ⟨hname, haliased, ?_⟩
    intro m hm
    obtain ⟨a, ha, rfl⟩ := List.mem_map.mp (Members.mem_of_mem_ofList hm)
    exact fieldArguments_wellFormed hg hargs a ha

/-- What a document asks for is well formed. -/
theorem document_wellFormed {given : Members} (hg : ∀ m ∈ given, m.2.nesting = 0) {s : Selection}
    (h : document cs = .ok s) : (s.resolve given).WellFormed := by
  have hkeyword : ∀ {op r}, afterKeyword op r = .ok s → (s.resolve given).WellFormed := by
    intro op r h
    obtain ⟨r, -, h⟩ := proceed_eq_ok h
    obtain ⟨r, -, h⟩ := proceed_eq_ok h
    obtain ⟨r, -, h⟩ := proceed_eq_ok h
    exact rootField_wellFormed hg h
  rw [document_eq] at h
  split at h
  · exact rootField_wellFormed hg h
  · obtain ⟨⟨word, r⟩, -, h⟩ := proceed_eq_ok h
    dsimp only at h
    split at h
    · exact hkeyword h
    · split at h
      · exact hkeyword h
      · split at h
        · cases h
        · cases h

end Fields

end Graphql

end Intranet
