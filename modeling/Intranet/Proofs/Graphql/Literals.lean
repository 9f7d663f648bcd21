import Intranet.Proofs.Graphql.Layout

/-!
# Reading literals, arguments and directives

Which literal, which arguments and which directives are read does not depend on the variables. Here
is what is written for each of them, and that the readers take it off any text that starts with it,
whatever stands behind.

Main results:

* `Reads.many`: sequences of items are read if the items are;
* `literal_reads`, `arguments_read`: literals and arguments;
* `fieldArguments_read`, `skipDirectives_read`: with what may be left out.
-/

namespace Intranet.Graphql

/-! ## What is written -/

/-- Items one after the other. -/
inductive Sequence {α : Type} (P : α → List Token → Prop) : List α → List Token → Prop where
  | nil : Sequence P [] []
  | cons {a : α} {as : List α} {ts us : List Token} (h : P a ts) (hs : Sequence P as us) :
    Sequence P (a :: as) (ts ++ us)

/-- Something under a name. -/
inductive Under {α : Type} (P : α → List Token → Prop) : String × α → List Token → Prop where
  | mk {n : String} {a : α} {ts : List Token} (h : P a ts) :
    Under P (n, a) (.name n :: .mark ':' :: ts)

/-- The ways to write a literal, given the ways to write those inside it, if there may be any. Any
name but the three words of the language is an enumeration value. -/
inductive Spelling (inner : Option (Literal → List Token → Prop)) :
    Literal → List Token → Prop where
  | name {n : String} : Spelling inner (.ofName n) [.name n]
  | number {t : List Char} {n : Number} (ht : Numeric t n) :
      Spelling inner (.ofNumber n) [.number t]
  | string {t : List Char} {s : String} (ht : Quoted t s) : Spelling inner (.string s) [.string t]
  | ref {v : String} : Spelling inner (.ref v) [.mark '$', .name v]
  | list {P : Literal → List Token → Prop} {items : List Literal} {ts : List Token}
    (hp : inner = some P) (h : Sequence P items ts) :
    Spelling inner (.list items) (.mark '[' :: (ts ++ [.mark ']']))
  | object {P : Literal → List Token → Prop} {fields : List (String × Literal)} {ts : List Token}
    (hp : inner = some P) (h : Sequence (Under P) fields ts) :
    Spelling inner (.object fields) (.mark '\x7b' :: (ts ++ [.mark '\x7d']))

/-- The ways to write a literal with at most so many lists and objects open at once. -/
def Spelled : Nat → Literal → List Token → Prop
  | 0 => Spelling none
  | n + 1 => Spelling (some (Spelled n))

/-- Arguments in parentheses, or none. -/
inductive Arguments : List (String × Literal) → List Token → Prop where
  | none : Arguments [] []
  | some {args : List (String × Literal)} {ts : List Token}
    (h : Sequence (Under (Spelled maxDepth)) args ts) :
    Arguments args (.mark '(' :: (ts ++ [.mark ')']))

/-- Directives one after the other, with or without arguments. -/
inductive DirectiveList : List Token → Prop where
  | nil : DirectiveList []
  | cons {n : String} {args : List (String × Literal)} {ts us : List Token}
    (ha : Arguments args ts) (h : DirectiveList us) :
    DirectiveList (.mark '@' :: .name n :: (ts ++ us))

/-! ## What comes next -/

/-- There is a token that comes next, and it is no punctuation mark of one kind. -/
def Lacks (c : Char) (ts : List Token) : Prop := ∃ t us, ts = t :: us ∧ t ≠ .mark c

theorem Leads.eat?_lacks {c : Char} {ts : List Token} {cs rest : List Char} (h : Leads ts cs rest)
    (hc : c ∈ marks) (hts : Lacks c ts) : Graphql.eat? c cs = none := by
  obtain ⟨t, us, rfl, ht⟩ := hts
  exact h.eat?_none hc ht

theorem Arguments.lacks {args : List (String × Literal)} {c : Char} {ts us : List Token}
    (h : Arguments args ts) (hc : c ≠ '(') (hus : Lacks c us) : Lacks c (ts ++ us) := by
  cases h with
  | none => exact hus
  | some _ => exact ⟨_, _, rfl, by simpa using hc.symm⟩

theorem DirectiveList.lacks {c : Char} {ts us : List Token} (h : DirectiveList ts) (hc : c ≠ '@')
    (hus : Lacks c us) : Lacks c (ts ++ us) := by
  cases h with
  | nil => exact hus
  | cons _ _ => exact ⟨_, _, rfl, by simpa using hc.symm⟩

/-! ## Readers and what they take -/

/-- A reader takes what is written off each text that starts with it, and leaves one that starts
with the tokens behind it. -/
structure Reads {α : Type} (R : List Char → Except Malformed (α × List Char))
    (P : α → List Token → Prop) : Prop where
  read : ∀ {a : α} {ts us : List Token} {cs rest : List Char}, P a ts → Leads (ts ++ us) cs rest →
    ∃ cs₁, R cs = .ok (a, cs₁) ∧ Leads us cs₁ rest

/-- What is written does not start with a closing mark. -/
def Opens {β : Type} (P : β → List Token → Prop) : Prop :=
  ∀ {b : β} {ts : List Token}, P b ts →
    ∃ t us, ts = t :: us ∧ ∀ c ∈ [')', ']', '\x7d'], t ≠ .mark c

theorem Reads.pair {α : Type} {p : Taker α} {P : α → List Token → Prop} (h : Reads p.run P) :
    Reads (pair p).run (Under P) := by
  refine ⟨?_⟩
  intro a ts us cs rest ha hl
  cases ha with
  | mk ha =>
    obtain ⟨cs₁, hname, h₁⟩ := hl.name
    obtain ⟨cs₂, hcolon, h₂⟩ := h₁.expect
    obtain ⟨cs₃, hrun, h₃⟩ := h.read ha h₂
    refine ⟨cs₃, ?_, h₃⟩
    show pairRun p cs = _
    unfold pairRun
    rw [hname]
    dsimp only
    rw [hcolon]
    dsimp only
    rw [hrun]

/-- A sequence is read up to its closing mark if its items are read and do not look like that. -/
theorem Reads.many {α : Type} {p : Taker α} {P : α → List Token → Prop} (h : Reads p.run P)
    (ho : Opens P) {c : Char} (hc : c ∈ [')', ']', '\x7d']) :
    Reads (p.many c) (fun as ts => ∃ us, ts = us ++ [.mark c] ∧ Sequence P as us) := by
  have hmarks : c ∈ marks := by
    simp only [List.mem_cons, List.not_mem_nil, or_false] at hc
    rcases hc with rfl | rfl | rfl <;> decide
  have honto : ∀ {as ts}, Sequence P as ts → ∀ (done : List α) (us : List Token)
      (cs rest : List Char), Leads (ts ++ .mark c :: us) cs rest →
        ∃ cs₁, p.manyOnto c done cs = .ok (done.reverse ++ as, cs₁) ∧ Leads us cs₁ rest := by
    intro as ts hs
    induction hs with
    | nil =>
      intro done us cs rest hl
      obtain ⟨cs₁, he, h₁⟩ := Leads.eat? hl
      refine ⟨cs₁, ?_, h₁⟩
      rw [manyOnto_eq, he, List.append_nil]
      rfl
    | cons ha hs ih =>
      rename_i a as ts ts'
      intro done us cs rest hl
      rw [List.append_assoc] at hl
      have hne : Graphql.eat? c cs = none := by
        obtain ⟨t, vs, rfl, ht⟩ := ho ha
        exact Leads.eat?_none hl hmarks (ht c hc)
      obtain ⟨cs₁, hrun, h₁⟩ := h.read ha hl
      obtain ⟨cs₂, hmany, h₂⟩ := ih (a :: done) us cs₁ rest h₁
      refine ⟨cs₂, ?_, h₂⟩
      rw [manyOnto_eq, hne]
      show (p.run cs).bind _ = _
      rw [hrun]
      show p.manyOnto c (a :: done) cs₁ = _
      rw [hmany]
      simp
  refine ⟨?_⟩
  rintro as ts us cs rest ⟨vs, rfl, hs⟩ hl
  rw [List.append_assoc] at hl
  exact honto hs [] us cs rest hl

theorem opens_under {β : Type} (P : β → List Token → Prop) : Opens (Under P) := by
  intro b ts h
  cases h with
  | mk h => exact ⟨_, _, rfl, fun c _ => by simp⟩

/-! ## Literals -/

theorem Spelling.opens {inner : Option (Literal → List Token → Prop)} :
    Opens (Spelling inner) := by
  intro l ts h
  cases h with
  | name => exact ⟨_, _, rfl, fun c _ => by simp⟩
  | number _ => exact ⟨_, _, rfl, fun c _ => by simp⟩
  | string _ => exact ⟨_, _, rfl, fun c _ => by simp⟩
  | ref => exact ⟨_, _, rfl, by simp⟩
  | list _ _ => exact ⟨_, _, rfl, by simp⟩
  | object _ _ => exact ⟨_, _, rfl, by simp⟩

/-- Literals are read if those inside them are. -/
theorem valueRun_reads {inner : Option (Taker Literal)}
    {spelled : Option (Literal → List Token → Prop)}
    (h : ∀ P, spelled = some P → ∃ p, inner = some p ∧ Reads p.run P ∧ Opens P) :
    Reads (valueRun inner) (Spelling spelled) := by
  refine ⟨?_⟩
  intro l ts us cs rest hl hcs
  cases hl with
  | name =>
    obtain ⟨cs₁, hname, h₁⟩ := hcs.name
    obtain ⟨c, w, hs, hc⟩ := hcs.name_head
    refine ⟨cs₁, ?_, h₁⟩
    rw [valueRun_name hc hs, ← hs, name_skipIgnored, hname]
    rfl
  | number ht =>
    obtain ⟨c, w, cs₁, hs, hc, hnum, h₁⟩ := hcs.number ht
    refine ⟨cs₁, ?_, h₁⟩
    rw [valueRun_number hc hs, hnum]
    rfl
  | string ht =>
    obtain ⟨w, cs₁, hs, hstr, h₁⟩ := hcs.string ht
    refine ⟨cs₁, ?_, h₁⟩
    rw [valueRun_string hs, hstr]
    rfl
  | ref =>
    obtain ⟨w, hs, hw⟩ := hcs.mark
    obtain ⟨cs₁, hname, h₁⟩ := hw.name
    refine ⟨cs₁, ?_, h₁⟩
    rw [valueRun_ref hs, hname]
    rfl
  | list hp hseq =>
    obtain ⟨p, rfl, hread, ho⟩ := h _ hp
    obtain ⟨w, hw, hin⟩ := hcs.mark
    obtain ⟨cs₁, hmany, h₁⟩ := (hread.many ho (by decide)).read ⟨_, rfl, hseq⟩ hin
    refine ⟨cs₁, ?_, h₁⟩
    rw [valueRun_list hw, hmany]
    rfl
  | object hp hseq =>
    obtain ⟨p, rfl, hread, ho⟩ := h _ hp
    obtain ⟨w, hw, hin⟩ := hcs.mark
    obtain ⟨cs₁, hmany, h₁⟩ :=
      (hread.pair.many (opens_under _) (by decide)).read ⟨_, rfl, hseq⟩ hin
    refine ⟨cs₁, ?_, h₁⟩
    rw [valueRun_object hw, hmany]
    rfl

theorem spelled_opens (n : Nat) : Opens (Spelled n) := by
  cases n with
  | zero => exact Spelling.opens
  | succ n => exact Spelling.opens

/-- Literals are read up to the depth that is allowed. -/
theorem literal_reads (n : Nat) : Reads (literal n).run (Spelled n) := by
  induction n with
  | zero =>
    show Reads (valueRun none) (Spelling none)
    refine valueRun_reads fun P hP => ?_
    cases hP
  | succ n ih =>
    show Reads (valueRun (some (literal n))) (Spelling (some (Spelled n)))
    refine valueRun_reads fun P hP => ?_
    cases hP
    exact ⟨literal n, rfl, ih, spelled_opens n⟩

/-! ## Arguments and directives -/

theorem arguments_read : Reads arguments (fun args ts =>
    ∃ us, ts = us ++ [.mark ')'] ∧ Sequence (Under (Spelled maxDepth)) args us) :=
  (literal_reads maxDepth).pair.many (opens_under _) (by decide)

theorem fieldArguments_read {args : List (String × Literal)} {ts us : List Token}
    {cs rest : List Char} (h : Arguments args ts) (hl : Leads (ts ++ us) cs rest)
    (hus : Lacks '(' us) : ∃ cs₁, fieldArguments cs = .ok (args, cs₁) ∧ Leads us cs₁ rest := by
  unfold fieldArguments
  cases h with
  | none =>
    refine ⟨skipIgnored cs, ?_, hl.skip⟩
    rw [Leads.eat?_lacks hl (by decide) hus]
  | some h =>
    obtain ⟨inside, he, hin⟩ := Leads.eat? hl
    obtain ⟨cs₁, hargs, h₁⟩ := arguments_read.read ⟨_, rfl, h⟩ hin
    refine ⟨cs₁, ?_, h₁⟩
    rw [he]
    exact hargs

theorem skipDirectives_read {ts us : List Token} {cs rest : List Char} (h : DirectiveList ts)
    (hl : Leads (ts ++ us) cs rest) (ha : Lacks '@' us) (hp : Lacks '(' us) :
    ∃ cs₁, skipDirectives cs = .ok cs₁ ∧ Leads us cs₁ rest := by
  induction h generalizing cs with
  | nil =>
    refine ⟨skipIgnored cs, ?_, hl.skip⟩
    rw [skipDirectives_eq, Leads.eat?_lacks hl (by decide) ha]
    rfl
  | cons hargs hdirs ih =>
    rename_i n args ts vs
    obtain ⟨cs₁, hat, h₁⟩ := Leads.eat? hl
    obtain ⟨cs₂, hname, h₂⟩ := h₁.name
    have h₂ : Leads (ts ++ (vs ++ us)) cs₂ rest := by
      rw [← List.append_assoc]
      exact h₂
    rw [skipDirectives_eq, hat]
    show ∃ cs₁', (name cs₁).bind _ = _ ∧ _
    rw [hname]
    cases hargs with
    | none =>
      obtain ⟨cs₃, hdir, h₃⟩ := ih h₂
      refine ⟨cs₃, ?_, h₃⟩
      show (Graphql.eat? '(' cs₂).elim _ _ = _
      rw [Leads.eat?_lacks h₂ (by decide) (hdirs.lacks (by decide) hp)]
      exact hdir
    | some hseq =>
      obtain ⟨cs₃, hopen, h₃⟩ := Leads.eat? h₂
      obtain ⟨cs₄, hread, h₄⟩ := arguments_read.read ⟨_, rfl, hseq⟩ h₃
      obtain ⟨cs₅, hdir, h₅⟩ := ih h₄
      refine ⟨cs₅, ?_, h₅⟩
      show (Graphql.eat? '(' cs₂).elim _ _ = _
      rw [hopen]
      show (arguments cs₃).bind _ = _
      rw [hread]
      exact hdir

end Intranet.Graphql
