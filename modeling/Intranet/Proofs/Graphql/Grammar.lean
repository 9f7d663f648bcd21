import Intranet.Proofs.Graphql.Literals

/-!
# The documents that write a root field

The grammar of the documents that are executed, as relations between what is meant and the tokens
that write it. A value may be written as a literal, and any part of it as a variable that stands
for it. What is passed over only has to be balanced.

Main results:

* `Writes`: the token sequences that write a root field, given the variables;
* `written_stands`: what writes a value spells a literal that stands for it;
* `ArgumentList.spelled`, `Directives.spelled`, `Opening.heading`: the same for what is made of
  values.
-/

namespace Intranet.Graphql

/-! ## Values -/

/-- The ways to write a value, given the ways to write the values inside it, if there may be
any. -/
inductive Value (given : Members) (inner : Option (Json → List Token → Prop)) :
    Json → List Token → Prop where
  | null : Value given inner .null [.name "null"]
  | bool (b : Bool) : Value given inner (.bool b) [.name (if b then "true" else "false")]
  | int {t : List Char} {n : Int} (ht : Numeral t n) (hn : InRange n) :
    Value given inner (.int n) [.number t]
  | string {t : List Char} {s : String} (ht : Quoted t s) : Value given inner (.str s) [.string t]
  | ref {v : String} {j : Json} (hv : Members.get? v given = some j) :
    Value given inner j [.mark '$', .name v]
  | list {P : Json → List Token → Prop} {items : List Json} {ts : List Token}
    (hp : inner = some P) (h : Sequence P items ts) :
    Value given inner (.arr items) (.mark '[' :: (ts ++ [.mark ']']))
  | object {P : Json → List Token → Prop} {fields : List (String × Json)} {ts : List Token}
    (hp : inner = some P) (h : Sequence (Under P) fields ts) :
    Value given inner (.mk fields) (.mark '\x7b' :: (ts ++ [.mark '\x7d']))

/-- The ways to write a value with at most so many lists and objects open at once. -/
def Written (given : Members) : Nat → Json → List Token → Prop
  | 0 => Value given none
  | n + 1 => Value given (some (Written given n))

/-! ## Parts of a document -/

/-- Arguments in parentheses, or none. Of two with one name the later counts. -/
inductive ArgumentList (given : Members) : Members → List Token → Prop where
  | none : ArgumentList given [] []
  | some {args : List (String × Json)} {ts : List Token}
    (h : Sequence (Under (Written given maxDepth)) args ts) :
    ArgumentList given (Members.ofList args) (.mark '(' :: (ts ++ [.mark ')']))

/-- Directives, with or without arguments. -/
inductive Directives (given : Members) : List Token → Prop where
  | nil : Directives given []
  | cons {n : String} {args : Members} {ts us : List Token} (ha : ArgumentList given args ts)
    (h : Directives given us) : Directives given (.mark '@' :: .name n :: (ts ++ us))

/-- Tokens in which the brackets of a group match. -/
inductive Balanced (g : Group) : List Token → Prop where
  | nil : Balanced g []
  | token {t : Token} {ts : List Token} (ho : t ≠ .mark g.opening) (hc : t ≠ .mark g.closing)
    (h : Balanced g ts) : Balanced g (t :: ts)
  | nested {inner ts : List Token} (hi : Balanced g inner) (h : Balanced g ts) :
    Balanced g (.mark g.opening :: (inner ++ .mark g.closing :: ts))

/-- A group between its brackets, or none. -/
inductive Bracketed (g : Group) : List Token → Prop where
  | none : Bracketed g []
  | some {ts : List Token} (h : Balanced g ts) :
    Bracketed g (.mark g.opening :: (ts ++ [.mark g.closing]))

/-- The word that an operation starts with. -/
def Operation.keyword : Operation → String
  | query => "query"
  | mutation => "mutation"

/-- What stands before the opening brace of an operation: nothing, if it is a query, or its keyword
with a name, variable definitions and directives, each of them optional. -/
inductive Opening (given : Members) : Operation → List Token → Prop where
  | short : Opening given .query []
  | long {op : Operation} {n : Option String} {vars dirs : List Token}
    (hv : Bracketed .header vars) (hd : Directives given dirs) :
    Opening given op (.name op.keyword :: ((n.map Token.name).toList ++ (vars ++ dirs)))

/-- Punctuation in the header of a later definition. -/
def headerMarks : List Char := ['$', ':', '@', '!', '[', ']', '=']

/-- The header of a later definition behind its keyword: a name, a type, variable definitions,
directives and their arguments. -/
inductive Header : List Token → Prop where
  | nil : Header []
  | name {n : String} {ts : List Token} (h : Header ts) : Header (.name n :: ts)
  | mark {c : Char} {ts : List Token} (hc : c ∈ headerMarks) (h : Header ts) :
    Header (.mark c :: ts)
  | group {inner ts : List Token} (hi : Balanced .laterHeader inner) (h : Header ts) :
    Header (.mark '(' :: (inner ++ .mark ')' :: ts))

/-- Later definitions: operations and fragments with a keyword, and queries without one. -/
inductive Definitions : List Token → Prop where
  | nil : Definitions []
  | short {inner ts : List Token} (hi : Balanced .laterSelection inner) (h : Definitions ts) :
    Definitions (.mark '\x7b' :: (inner ++ .mark '\x7d' :: ts))
  | long {word : String} {header inner ts : List Token} (hw : word ∈ definitionWords)
    (hh : Header header) (hi : Balanced .laterSelection inner) (h : Definitions ts) :
    Definitions (.name word :: (header ++ .mark '\x7b' :: (inner ++ .mark '\x7d' :: ts)))

/-- An alias with its colon, or none. -/
def aliasTokens : Option String → List Token
  | none => []
  | some a => [.name a, .mark ':']

/-- The token sequences of the documents that write a root field. -/
inductive Writes (given : Members) (r : RootField) : List Token → Prop where
  | mk {head args dirs selection later : List Token} (hhead : Opening given r.operation head)
    (hargs : ArgumentList given r.arguments args) (hdirs : Directives given dirs)
    (hselection : Bracketed .selection selection) (hlater : Definitions later) :
    Writes given r (head ++ .mark '\x7b' :: (aliasTokens r.aliased ++ .name r.name ::
      (args ++ (dirs ++ (selection ++ .mark '\x7d' :: later)))))

/-! ## What is read, whatever the variables -/

/-- A keyword with what may stand between it and the opening brace of an operation: a name,
variable definitions and directives, each of them optional. -/
inductive Headed (word : String) : List Token → Prop where
  | mk {n : Option String} {vars dirs : List Token} (hv : Bracketed .header vars)
    (hd : DirectiveList dirs) :
    Headed word (.name word :: ((n.map Token.name).toList ++ (vars ++ dirs)))

/-- What stands before the opening brace of an operation: nothing, if it is a query, or its keyword
with what belongs to it. -/
inductive Heading : Operation → List Token → Prop where
  | short : Heading .query []
  | long {op : Operation} {ts : List Token} (h : Headed op.keyword ts) : Heading op ts

/-- What writes a value spells a literal that stands for it. -/
def Stands (given : Members) (P : Json → List Token → Prop) (Q : Literal → List Token → Prop) :
    Prop :=
  ∀ (j : Json) (ts : List Token), P j ts → ∃ l, Q l ts ∧ l.resolve given = j

section Stands

variable {given : Members} {ts : List Token}

theorem resolveItems_eq_map (given : Members) (items : List Literal) :
    Literal.resolveItems given items = items.map (Literal.resolve given) := by
  induction items with
  | nil => rfl
  | cons l items ih => rw [Literal.resolveItems, ih, List.map_cons]

theorem resolveFields_eq_map (given : Members) (fields : List (String × Literal)) :
    Literal.resolveFields given fields = fields.map fun r => (r.1, r.2.resolve given) := by
  induction fields with
  | nil => rfl
  | cons r fields ih =>
    obtain ⟨k, l⟩ := r
    rw [Literal.resolveFields, ih, List.map_cons]

theorem Sequence.lift {α β : Type} {P : β → List Token → Prop} {Q : α → List Token → Prop}
    {f : α → β} (h : ∀ b ts, P b ts → ∃ a, Q a ts ∧ f a = b) {bs : List β}
    (hs : Sequence P bs ts) : ∃ as, Sequence Q as ts ∧ as.map f = bs := by
  induction hs with
  | nil => exact ⟨[], .nil, rfl⟩
  | cons hb _ ih =>
    obtain ⟨a, ha, rfl⟩ := h _ _ hb
    obtain ⟨as, has, rfl⟩ := ih
    exact ⟨a :: as, .cons ha has, rfl⟩

theorem Stands.under {P : Json → List Token → Prop} {Q : Literal → List Token → Prop}
    (h : Stands given P Q) (r : String × Json) (ts : List Token) (hr : Under P r ts) :
    ∃ l, Under Q l ts ∧ (l.1, l.2.resolve given) = r := by
  cases hr with
  | mk hj =>
    obtain ⟨l, hl, rfl⟩ := h _ _ hj
    exact ⟨(_, l), .mk hl, rfl⟩

/-- A value is a literal if the values inside it are. -/
theorem Value.stands {written : Option (Json → List Token → Prop)}
    {inner : Option (Literal → List Token → Prop)}
    (h : ∀ P, written = some P → ∃ Q, inner = some Q ∧ Stands given P Q) :
    Stands given (Value given written) (Spelling inner) := by
  intro j ts hj
  cases hj with
  | null => exact ⟨_, .name, rfl⟩
  | bool b => exact ⟨_, .name, by cases b <;> rfl⟩
  | int ht hn => exact ⟨_, .number (.int ht hn), rfl⟩
  | string ht => exact ⟨_, .string ht, rfl⟩
  | ref hv =>
    refine ⟨_, .ref, ?_⟩
    rw [Literal.resolve, hv]
    rfl
  | list hp hs =>
    obtain ⟨Q, rfl, hQ⟩ := h _ hp
    obtain ⟨ls, hls, hitems⟩ := hs.lift hQ
    refine ⟨_, .list rfl hls, ?_⟩
    rw [Literal.resolve, resolveItems_eq_map, hitems]
  | object hp hs =>
    obtain ⟨Q, rfl, hQ⟩ := h _ hp
    obtain ⟨ls, hls, hfields⟩ := hs.lift hQ.under
    refine ⟨_, .object rfl hls, ?_⟩
    rw [Literal.resolve, resolveFields_eq_map, hfields]

theorem written_stands (n : Nat) : Stands given (Written given n) (Spelled n) := by
  induction n with
  | zero =>
    show Stands given (Value given none) (Spelling none)
    refine Value.stands fun P hP => ?_
    cases hP
  | succ n ih =>
    show Stands given (Value given (some (Written given n))) (Spelling (some (Spelled n)))
    refine Value.stands fun P hP => ?_
    cases hP
    exact ⟨Spelled n, rfl, ih⟩

theorem ArgumentList.spelled {args : Members} (h : ArgumentList given args ts) :
    ∃ ls, Arguments ls ts ∧ Members.ofList (ls.map fun r => (r.1, r.2.resolve given)) = args := by
  cases h with
  | none => exact ⟨[], .none, rfl⟩
  | some hs =>
    obtain ⟨ls, hls, hargs⟩ := hs.lift (written_stands maxDepth).under
    exact ⟨ls, .some hls, by rw [hargs]⟩

theorem Directives.spelled (h : Directives given ts) : DirectiveList ts := by
  induction h with
  | nil => exact .nil
  | cons ha _ ih =>
    obtain ⟨ls, hls, -⟩ := ha.spelled
    exact .cons hls ih

theorem Opening.heading {op : Operation} (h : Opening given op ts) : Heading op ts := by
  cases h with
  | short => exact .short
  | long hv hd => exact .long (.mk hv hd.spelled)

end Stands

end Intranet.Graphql
