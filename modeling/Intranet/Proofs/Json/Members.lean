import Intranet.Json.Basic
import Mathlib.Data.List.Induction

/-!
# Members of an object

What is found among the members of an object after one is put there, and after those of a list are
put there in turn.

* `get?_insert`, `get?_ofList` — of several values under one name the last counts;
* `names_insert`, `names_ofList` — which names there are does not depend on the values;
* `ofList_of_ordered` — members that are in order stay as they are;
* `mem_of_get?`, `mem_of_mem_ofList` — nothing comes in that was not put there;
* `get?_sorted` — sorting the members of an object leaves them under their names.
-/

namespace Intranet

namespace Members

/-! ## One member -/

theorem get?_insert (key name : String) (value : Json) (m : Members) :
    get? name (insert key value m) = if key = name then some value else get? name m := by
  induction m with
  | nil => rfl
  | cons pair rest ih =>
    obtain ⟨k, v⟩ := pair
    rw [insert]
    by_cases hk : k = key
    · subst hk
      rw [if_pos rfl, get?, get?]
      by_cases hn : k = name
      · rw [if_pos hn, if_pos hn]
      · rw [if_neg hn, if_neg hn, if_neg hn]
    · rw [if_neg hk]
      by_cases hlt : key < k
      · rw [if_pos hlt, get?]
      · rw [if_neg hlt, get?, ih, get?]
        by_cases hn : k = name
        · rw [if_pos hn, if_pos hn, if_neg fun h => hk (hn.trans h.symm)]
        · rw [if_neg hn, if_neg hn]

/-- What is found among members behind others. -/
theorem get?_append (name : String) (m n : Members) :
    get? name (m ++ n) = (get? name m).or (get? name n) := by
  induction m with
  | nil => rfl
  | cons pair rest ih =>
    obtain ⟨k, v⟩ := pair
    rw [List.cons_append, get?, get?, ih]
    by_cases hk : k = name
    · rw [if_pos hk, if_pos hk]
      rfl
    · rw [if_neg hk, if_neg hk]

/-- Under a name that no member has nothing is found. -/
theorem get?_eq_none {name : String} {m : Members} (h : name ∉ m.map Prod.fst) :
    get? name m = none := by
  induction m with
  | nil => rfl
  | cons pair rest ih =>
    obtain ⟨k, v⟩ := pair
    rw [List.map_cons, List.mem_cons, not_or] at h
    rw [get?, if_neg fun hk => h.1 hk.symm, ih h.2]

/-- The value put under a name is found there. -/
theorem get?_insert_self (key : String) (value : Json) (m : Members) :
    get? key (insert key value m) = some value := by
  rw [get?_insert, if_pos rfl]

/-- A member behind all others is put at the end. -/
theorem insert_eq_append {key : String} {value : Json} {m : Members} (h : ∀ a ∈ m, a.1 < key) :
    insert key value m = m ++ [(key, value)] := by
  induction m with
  | nil => rfl
  | cons a m ih =>
    have hlt : a.1 < key := h a List.mem_cons_self
    have hne : a.1 ≠ key := by
      intro he
      rw [he] at hlt
      exact String.lt_irrefl key hlt
    show (if a.1 = key then _ else if key < a.1 then _ else _) = _
    rw [if_neg hne, if_neg (String.lt_asymm hlt), ih fun b hb => h b (List.mem_cons_of_mem a hb)]
    rfl

theorem ofList_concat (pairs : List (String × Json)) (key : String) (value : Json) :
    ofList (pairs ++ [(key, value)]) = insert key value (ofList pairs) := by
  rw [ofList, List.foldl_append]
  rfl

/-- Of several values under one name the last counts. -/
theorem get?_ofList (name : String) (pairs : List (String × Json)) :
    get? name (ofList pairs) = (pairs.reverse.find? fun a => a.1 = name).map (·.2) := by
  induction pairs using List.reverseRecOn with
  | nil => rfl
  | append_singleton pairs pair ih =>
    obtain ⟨key, value⟩ := pair
    rw [ofList_concat, get?_insert, ih, List.reverse_concat, List.find?_cons]
    by_cases hk : key = name
    · rw [if_pos hk, decide_eq_true hk]
      rfl
    · rw [if_neg hk, decide_eq_false hk]

/-- Members in order stay as they are. -/
theorem ofList_of_ordered {m : Members} (h : m.Pairwise fun a b => a.1 < b.1) : ofList m = m := by
  induction m using List.reverseRecOn with
  | nil => rfl
  | append_singleton m a ih =>
    obtain ⟨hinit, -, hlast⟩ := List.pairwise_append.mp h
    rw [ofList_concat, ih hinit]
    exact insert_eq_append fun b hb => hlast b hb a List.mem_cons_self

/-- What is found is a member. -/
theorem mem_of_get? {name : String} {value : Json} {m : Members} (h : get? name m = some value) :
    (name, value) ∈ m := by
  induction m with
  | nil => cases h
  | cons pair rest ih =>
    obtain ⟨k, v⟩ := pair
    rw [get?] at h
    split at h
    · next hk =>
      cases h
      rw [hk]
      exact List.mem_cons_self
    · exact List.mem_cons_of_mem _ (ih h)

theorem mem_of_mem_insert {key : String} {value : Json} {m : Members} {a : String × Json}
    (h : a ∈ insert key value m) : a = (key, value) ∨ a ∈ m := by
  induction m with
  | nil => exact .inl (List.mem_singleton.mp h)
  | cons pair rest ih =>
    obtain ⟨k, v⟩ := pair
    rw [insert] at h
    split at h
    · simp only [List.mem_cons] at h ⊢
      exact h.imp_right .inr
    · split at h
      · simpa only [List.mem_cons] using h
      · rcases List.mem_cons.mp h with rfl | h
        · exact .inr List.mem_cons_self
        · exact (ih h).imp_right (List.mem_cons_of_mem _)

/-- Members stay in order when one is put among them. -/
theorem ordered_insert {key : String} {value : Json} {m : Members}
    (h : m.Pairwise fun a b => a.1 < b.1) :
    (insert key value m).Pairwise fun a b => a.1 < b.1 := by
  induction m with
  | nil => exact List.pairwise_singleton _ _
  | cons pair rest ih =>
    obtain ⟨k, v⟩ := pair
    obtain ⟨hhead, hrest⟩ := List.pairwise_cons.1 h
    rw [insert]
    by_cases hk : k = key
    · rw [if_pos hk, ← hk]
      exact List.pairwise_cons.2 ⟨hhead, hrest⟩
    · rw [if_neg hk]
      by_cases hlt : key < k
      · rw [if_pos hlt]
        refine List.pairwise_cons.2 ⟨fun a ha => ?_, h⟩
        rcases List.mem_cons.1 ha with rfl | ha
        · exact hlt
        · exact String.lt_trans hlt (hhead a ha)
      · rw [if_neg hlt]
        refine List.pairwise_cons.2 ⟨fun a ha => ?_, ih hrest⟩
        rcases mem_of_mem_insert ha with rfl | ha
        · exact Std.lt_of_le_of_ne (String.not_lt.1 hlt) hk
        · exact hhead a ha

/-- The members that a list of pairs leaves are among the pairs. -/
theorem mem_of_mem_ofList {pairs : List (String × Json)} {a : String × Json}
    (h : a ∈ ofList pairs) : a ∈ pairs := by
  induction pairs using List.reverseRecOn with
  | nil => exact h
  | append_singleton pairs pair ih =>
    obtain ⟨key, value⟩ := pair
    rw [ofList_concat] at h
    rcases mem_of_mem_insert h with rfl | h
    · exact List.mem_append_right _ (List.mem_singleton_self _)
    · exact List.mem_append_left _ (ih h)

/-- Where a value is put depends on the names alone. -/
theorem names_insert (key : String) (v w : Json) {m n : Members}
    (h : m.map Prod.fst = n.map Prod.fst) :
    (insert key v m).map Prod.fst = (insert key w n).map Prod.fst := by
  induction m generalizing n with
  | nil =>
    cases n with
    | nil => rfl
    | cons b n => cases h
  | cons a m ih =>
    cases n with
    | nil => cases h
    | cons b n =>
      obtain ⟨k, x⟩ := a
      obtain ⟨k', y⟩ := b
      obtain ⟨rfl, htail⟩ : k = k' ∧ m.map Prod.fst = n.map Prod.fst := by
        simpa using h
      rw [insert, insert]
      by_cases hk : k = key
      · rw [if_pos hk, if_pos hk]
        simpa using htail
      · rw [if_neg hk, if_neg hk]
        by_cases hlt : key < k
        · rw [if_pos hlt, if_pos hlt]
          simpa using htail
        · rw [if_neg hlt, if_neg hlt]
          simpa using ih htail

/-- The names of the members that a list of pairs leaves do not depend on the values. -/
theorem names_ofList {α : Type} (f g : α → Json) (pairs : List (String × α)) :
    (ofList (pairs.map fun a => (a.1, f a.2))).map Prod.fst =
      (ofList (pairs.map fun a => (a.1, g a.2))).map Prod.fst := by
  induction pairs using List.reverseRecOn with
  | nil => rfl
  | append_singleton pairs pair ih =>
    simp only [List.map_append, List.map_cons, List.map_nil, ofList_concat]
    exact names_insert _ _ _ ih

/-- Of values under different names each is found. -/
theorem get?_ofList_of_nodup {pairs : List (String × Json)} (h : (pairs.map Prod.fst).Nodup)
    (name : String) : get? name (ofList pairs) = get? name pairs := by
  induction pairs using List.reverseRecOn with
  | nil => rfl
  | append_singleton pairs pair ih =>
    obtain ⟨key, value⟩ := pair
    rw [List.map_append, List.nodup_append] at h
    rw [ofList_concat, get?_insert, ih h.1, get?_append]
    by_cases hk : key = name
    · subst hk
      have hfresh : get? key pairs = none :=
        get?_eq_none fun hmem => h.2.2 key hmem key List.mem_cons_self rfl
      rw [if_pos rfl, hfresh, get?, if_pos rfl]
      rfl
    · rw [if_neg hk, get?, if_neg hk, get?, Option.or_none]

end Members

/-! ## Sorted values -/

namespace Json

theorem names_sortedMembers (m : Members) : (sortedMembers m).map Prod.fst = m.map Prod.fst := by
  induction m with
  | nil => rfl
  | cons pair rest ih =>
    obtain ⟨k, v⟩ := pair
    rw [sortedMembers, List.map_cons, ih, List.map_cons]

theorem get?_sortedMembers (name : String) (m : Members) :
    Members.get? name (sortedMembers m) = (Members.get? name m).map sorted := by
  induction m with
  | nil => rfl
  | cons pair rest ih =>
    obtain ⟨k, v⟩ := pair
    rw [sortedMembers, Members.get?, Members.get?, ih]
    by_cases hk : k = name
    · rw [if_pos hk, if_pos hk]
      rfl
    · rw [if_neg hk, if_neg hk]

/-- Sorting the members of an object leaves them under their names. -/
theorem get?_sorted {m : Members} (h : (m.map Prod.fst).Nodup) (name : String) :
    (Json.obj m).sorted.get? name = ((Json.obj m).get? name).map sorted := by
  show Members.get? name (Members.ofList (sortedMembers m)) = _
  rw [Members.get?_ofList_of_nodup ((names_sortedMembers m).symm ▸ h), get?_sortedMembers]
  rfl

end Json

end Intranet
