import Intranet.Json.Printer
import Intranet.Proofs.Digits
import Intranet.Proofs.Graphql.Grammar
import Intranet.Proofs.Json.Members

/-!
# Every root field has a document

The grammar leaves no root field out whose names are names of the language and whose values a
document can hold: there is a document that writes it, whatever the variables are.

Main results:

* `quoted_printed`, `numeral_printed`: the JSON text of a string or an integer is one of a
  document;
* `Expressible.exists_written`: a writing of each value that a document can hold;
* `RootField.Expressible.exists_document`: a document for each root field.
-/

namespace Intranet.Graphql

/-! ## Strings and integers as the JSON printer writes them -/

/-- A character is printed as it is, or behind a backslash, or as a control with its number. -/
theorem escape_spec (c : Char) : (c ∉ ['"', '\\', '\n'] ∧ Json.escape c = [c]) ∨
    (∃ e, (e, c) ∈ escapes ∧ Json.escape c = ['\\', e]) ∨
      (c.toNat < 0x20 ∧ Json.escape c =
        ['\\', 'u', '0', '0', Hex.digit (c.toNat / 16), Hex.digit (c.toNat % 16)]) := by
  unfold Json.escape
  -- the seven characters with a letter of their own
  iterate 7
    split
    · rename_i h
      subst h
      exact .inr (.inl ⟨_, by decide, rfl⟩)
  split
  · exact .inr (.inr ⟨by assumption, rfl⟩)
  · refine .inl ⟨?_, rfl⟩
    simp only [List.mem_cons, List.not_mem_nil, or_false, not_or]
    exact ⟨by assumption, by assumption, by assumption⟩

theorem spells_printed (s : List Char) : Spells (s.flatMap Json.escape) s := by
  induction s with
  | nil => exact .nil
  | cons c s ih =>
    rw [List.flatMap_cons]
    rcases escape_spec c with ⟨hc, he⟩ | ⟨e, hmem, he⟩ | ⟨hlow, he⟩
    · rw [he]
      exact .raw hc ih
    · rw [he]
      exact .escape hmem ih
    · have hzero : Hex.value? '0' = some 0 := by decide
      rw [he]
      exact .unicode hzero hzero (Hex.value?_digit (by omega))
        (Hex.value?_digit (by omega)) (by omega) ih

/-- A printed string is a string of a document. -/
theorem quoted_printed (s : String) : Quoted (Json.quoteL s) s := by
  have h := Quoted.line (spells_printed s.toList)
  rwa [String.ofList_toList] at h

/-- A printed integer is an integer of a document. -/
theorem numeral_printed (n : Int) : Numeral (Json.intL n) n := by
  have hdigits : ∀ d ∈ Nat.toDigits 10 n.natAbs, Decimal.isDigit d = true :=
    fun d hd => Decimal.isDigit_of_mem_toDigits hd
  unfold Json.intL
  by_cases hn : n < 0
  · rw [if_pos hn]
    have h := Numeral.negative Nat.toDigits_ne_nil hdigits
    rwa [Decimal.natOnto_toDigits, Int.ofNat_natAbs_of_nonpos (Int.le_of_lt hn), Int.neg_neg] at h
  · rw [if_neg hn]
    have h := Numeral.positive Nat.toDigits_ne_nil hdigits
    rwa [Decimal.natOnto_toDigits, Int.natAbs_of_nonneg (Int.not_lt.mp hn)] at h

/-- A numeral is a number of the language. -/
theorem Numeral.isNumber {t : List Char} {n : Int} (h : Numeral t n) : IsNumber t := by
  have hchar : ∀ {ds : List Char}, (∀ d ∈ ds, Decimal.isDigit d = true) →
      ∀ d ∈ ds, isNumberChar d = true :=
    fun hds d hd => isNumberChar_of_start (.inr (hds d hd))
  cases h with
  | positive hne hds =>
    obtain ⟨d, ds, rfl⟩ := List.exists_cons_of_ne_nil hne
    exact ⟨d, ds, rfl, .inr (hds d List.mem_cons_self), hchar hds⟩
  | negative hne hds =>
    refine ⟨'-', _, rfl, .inl rfl, fun d hd => ?_⟩
    rcases List.mem_cons.mp hd with rfl | hd
    · decide
    · exact hchar hds d hd

/-! ## Members in order -/

/-- The names are names of the language and stand in order, each once. -/
structure Orderly (members : Members) : Prop where
  names : ∀ m ∈ members, IsName m.1
  ordered : members.Pairwise fun a b => a.1 < b.1

/-! ## Values and arguments -/

/-- The values that a document can hold with at most so many lists and objects open at once. -/
inductive Expressible : Nat → Json → Prop where
  | null {n : Nat} : Expressible n .null
  | bool {n : Nat} (b : Bool) : Expressible n (.bool b)
  | int {n : Nat} {i : Int} (hi : InRange i) : Expressible n (.int i)
  | str {n : Nat} (s : String) : Expressible n (.str s)
  | arr {n : Nat} {items : List Json} (h : ∀ j ∈ items, Expressible n j) :
    Expressible (n + 1) (.arr items)
  | obj {n : Nat} {members : Members} (ho : Orderly members)
    (h : ∀ m ∈ members, Expressible n m.2) : Expressible (n + 1) (.obj members)

/-- There is a writing in tokens of the language. -/
def HasWriting {α : Type} (P : α → List Token → Prop) (a : α) : Prop :=
  ∃ ts, P a ts ∧ ∀ t ∈ ts, t.Fits

theorem HasWriting.sequence {α : Type} {P : α → List Token → Prop} {as : List α}
    (h : ∀ a ∈ as, HasWriting P a) : HasWriting (Sequence P) as := by
  induction as with
  | nil => exact ⟨[], .nil, by simp⟩
  | cons a as ih =>
    obtain ⟨ts, hts, hfit⟩ := h a List.mem_cons_self
    obtain ⟨us, hus, hfits⟩ := ih fun b hb => h b (List.mem_cons_of_mem a hb)
    refine ⟨ts ++ us, .cons hts hus, fun t ht => ?_⟩
    rcases List.mem_append.mp ht with ht | ht
    · exact hfit t ht
    · exact hfits t ht

theorem HasWriting.under {α : Type} {P : α → List Token → Prop} {m : String × α}
    (hn : IsName m.1) (h : HasWriting P m.2) : HasWriting (Under P) m := by
  obtain ⟨n, a⟩ := m
  obtain ⟨ts, hts, hfit⟩ := h
  refine ⟨.name n :: .mark ':' :: ts, .mk hts, ?_⟩
  rw [List.forall_mem_cons, List.forall_mem_cons]
  exact ⟨hn, (by decide : ':' ∈ marks), hfit⟩

/-- Tokens between two punctuation marks. -/
theorem fits_enclosed {c d : Char} {ts : List Token} (hc : c ∈ marks) (hd : d ∈ marks)
    (h : ∀ t ∈ ts, t.Fits) : ∀ t ∈ Token.mark c :: (ts ++ [.mark d]), t.Fits := by
  rw [List.forall_mem_cons, List.forall_mem_append, List.forall_mem_singleton]
  exact ⟨hc, h, hd⟩

/-- What can be written without lists and objects can be written at every depth. -/
theorem HasWriting.written {given : Members} {n : Nat} {j : Json}
    (h : ∀ inner, HasWriting (Value given inner) j) : HasWriting (Written given n) j := by
  cases n with
  | zero => exact h none
  | succ n => exact h (some (Written given n))

/-- Every value that a document can hold has a writing. -/
theorem Expressible.exists_written (given : Members) {n : Nat} {j : Json}
    (h : Expressible n j) : HasWriting (Written given n) j := by
  induction h with
  | null => exact .written fun inner => ⟨_, .null, by simpa [Token.Fits] using by decide⟩
  | bool b =>
    refine .written fun inner => ⟨_, .bool b, ?_⟩
    rw [List.forall_mem_singleton]
    cases b
    · exact (by decide : IsName "false")
    · exact (by decide : IsName "true")
  | int hi =>
    rename_i i
    refine .written fun inner => ⟨_, .int (numeral_printed i) hi, ?_⟩
    rw [List.forall_mem_singleton]
    exact (numeral_printed i).isNumber
  | str s =>
    refine .written fun inner => ⟨_, .string (quoted_printed s), ?_⟩
    rw [List.forall_mem_singleton]
    exact ⟨s, quoted_printed s⟩
  | arr _ ih =>
    obtain ⟨ts, hts, hfit⟩ := HasWriting.sequence ih
    exact ⟨_, Value.list rfl hts, fits_enclosed (by decide) (by decide) hfit⟩
  | obj ho _ ih =>
    rename_i n members _
    obtain ⟨ts, hts, hfit⟩ := HasWriting.sequence fun m hm => (ih m hm).under (ho.names m hm)
    -- the pairs are written in their order, so putting them in turn leaves them as they are
    have hvalue : Written given (n + 1) (Json.mk members) _ := Value.object rfl hts
    unfold Json.mk at hvalue
    rw [Members.ofList_of_ordered ho.ordered] at hvalue
    exact ⟨_, hvalue, fits_enclosed (by decide) (by decide) hfit⟩

/-- Arguments whose values have writings have one. -/
theorem Orderly.exists_arguments (given : Members) {args : Members} (ho : Orderly args)
    (h : ∀ m ∈ args, Expressible maxDepth m.2) : HasWriting (ArgumentList given) args := by
  obtain ⟨ts, hts, hfit⟩ := HasWriting.sequence fun m hm =>
    ((h m hm).exists_written given).under (ho.names m hm)
  have hargs := ArgumentList.some hts
  rw [Members.ofList_of_ordered ho.ordered] at hargs
  exact ⟨_, hargs, fits_enclosed (by decide) (by decide) hfit⟩

/-! ## Root fields -/

/-- A root field that a document can hold. -/
structure RootField.Expressible (r : RootField) : Prop where
  name : IsName r.name
  aliased : ∀ a ∈ r.aliased, IsName a
  orderly : Orderly r.arguments
  values : ∀ m ∈ r.arguments, Graphql.Expressible maxDepth m.2

theorem isName_keyword (op : Operation) : IsName op.keyword := by
  cases op <;> decide

theorem fits_aliasTokens {a : Option String} (h : ∀ n ∈ a, IsName n) :
    ∀ t ∈ aliasTokens a, t.Fits := by
  cases a with
  | none => simp [aliasTokens]
  | some n =>
    rw [aliasTokens, List.forall_mem_cons, List.forall_mem_singleton]
    exact ⟨h n rfl, (by decide : ':' ∈ marks)⟩

/-- Every root field that a document can hold has a writing. -/
theorem RootField.Expressible.hasWriting (given : Members) {r : RootField} (h : r.Expressible) :
    HasWriting (Writes given) r := by
  obtain ⟨args, hargs, hfit⟩ := h.orderly.exists_arguments given h.values
  have hhead : Opening given r.operation [.name r.operation.keyword] :=
    .long (n := none) .none .nil
  refine ⟨_, .mk hhead hargs .nil .none .nil, ?_⟩
  simp only [List.cons_append, List.nil_append, List.forall_mem_cons, List.forall_mem_append]
  exact ⟨isName_keyword _, (by decide : '\x7b' ∈ marks), fits_aliasTokens h.aliased, h.name, hfit,
    (by decide : '\x7d' ∈ marks), by simp⟩

/-- Every root field that a document can hold has a document. -/
theorem RootField.Expressible.exists_document (given : Members) {r : RootField}
    (h : r.Expressible) : ∃ (ts : List Token) (text : String),
      Writes given r ts ∧ Laid ts text.toList := by
  obtain ⟨ts, hts, hfit⟩ := h.hasWriting given
  refine ⟨ts, String.ofList (spaced ts), hts, ?_⟩
  rw [String.toList_ofList]
  exact laid_spaced hfit

end Intranet.Graphql
