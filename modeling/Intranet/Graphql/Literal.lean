import Intranet.Graphql.Problem
import Intranet.Graphql.Token
import Intranet.Json.Basic

/-!
# Values written in a GraphQL document

A value is read into a literal that still names its variables; what they stand for is filled in
afterwards, so the content of a variable cannot change how a document is read.
-/

namespace Intranet.Graphql

/-- A value as a document writes it. -/
inductive Literal where
  | ref (variableName : String)
  | null
  | bool (b : Bool)
  | int (n : Int)
  | float (d : Double)
  | string (s : String)
  | list (items : List Literal)
  | object (fields : List (String × Literal))
  deriving Inhabited

namespace Literal

mutual

/-- The value of a literal. A variable that is not given is null; of two fields of one name the
later counts. -/
def resolve (given : Members) : Literal → Json
  | ref name => (Members.get? name given).getD .null
  | null => .null
  | bool b => .bool b
  | int n => .int n
  | float d => .float d
  | string s => .str s
  | list items => .arr (resolveItems given items)
  | object fields => .mk (resolveFields given fields)

/-- The values of the items of a list. -/
def resolveItems (given : Members) : List Literal → List Json
  | [] => []
  | item :: rest => resolve given item :: resolveItems given rest

/-- The values of the fields of an object. -/
def resolveFields (given : Members) : List (String × Literal) → List (String × Json)
  | [] => []
  | (key, value) :: rest => (key, resolve given value) :: resolveFields given rest

end

/-- The literal that a name stands for: the three words of the language, or an enumeration value,
which is taken as a string. -/
def ofName (n : String) : Literal :=
  if n = "true" then .bool true
  else if n = "false" then .bool false
  else if n = "null" then .null
  else .string n

/-- The literal of a number. -/
def ofNumber : Number → Literal
  | .int n => .int n
  | .float d => .float d

end Literal

/-! ## Readers that move on -/

/-- A reader that takes at least one character whenever it succeeds. -/
structure Taker (α : Type) where
  run : List Char → Except Malformed (α × List Char)
  shorter : ∀ {cs rest : List Char} {a : α}, run cs = .ok (a, rest) → rest.length < cs.length

namespace Taker

set_option linter.unusedVariables false in
/-- Items up to a closing character, on top of those already read. -/
def manyOnto {α : Type} (p : Taker α) (close : Char) (done : List α) (cs : List Char) :
    Except Malformed (List α × List Char) :=
  match eat? close cs with
  | some rest => .ok (done.reverse, rest)
  | none =>
    match h : p.run cs with
    | .error e => .error e
    | .ok (a, rest) => manyOnto p close (a :: done) rest
termination_by cs.length
decreasing_by exact p.shorter h

/-- Items up to a closing character, which is taken too. -/
def many {α : Type} (p : Taker α) (close : Char) (cs : List Char) :
    Except Malformed (List α × List Char) :=
  manyOnto p close [] cs

theorem manyOnto_shorter {α : Type} {p : Taker α} {close : Char} {done as : List α}
    {cs rest : List Char} (h : manyOnto p close done cs = .ok (as, rest)) :
    rest.length < cs.length := by
  fun_induction manyOnto p close done cs with
  | case1 done cs r he => cases h; exact eat?_shorter he
  | case2 => cases h
  | case3 done cs he a r hr ih => have := ih h; have := p.shorter hr; omega

theorem many_shorter {α : Type} {p : Taker α} {close : Char} {as : List α}
    {cs rest : List Char} (h : p.many close cs = .ok (as, rest)) : rest.length < cs.length :=
  manyOnto_shorter h

end Taker

/-- A name, a colon and what stands under the name. -/
def pairRun {α : Type} (p : Taker α) (cs : List Char) :
    Except Malformed ((String × α) × List Char) :=
  match name cs with
  | .error e => .error e
  | .ok (key, rest) =>
    match expect ':' rest with
    | .error e => .error e
    | .ok rest =>
      match p.run rest with
      | .error e => .error e
      | .ok (a, rest) => .ok ((key, a), rest)

/-- A name, a colon and what stands under the name. -/
def pair {α : Type} (p : Taker α) : Taker (String × α) where
  run := pairRun p
  shorter {cs rest a} h := by
    unfold pairRun at h
    split at h
    · cases h
    · next key r hn =>
      split at h
      · cases h
      · next r₂ he =>
        split at h
        · cases h
        · next b r₃ hp =>
          cases h
          have := name_shorter hn
          have := expect_shorter he
          have := p.shorter hp
          omega

/-! ## Values -/

/-- A value, given how to read the values inside it; without that it may not open a list or an
object. -/
def valueRun (inner : Option (Taker Literal)) (cs : List Char) :
    Except Malformed (Literal × List Char) :=
  match skipIgnored cs with
  | [] => .error .unexpectedEnd
  | c :: rest =>
    if c = '[' then
      match inner with
      | none => .error .tooDeep
      | some p => (p.many ']' rest).map fun (items, rest) => (.list items, rest)
    else if c = '\x7b' then
      match inner with
      | none => .error .tooDeep
      | some p => ((pair p).many '\x7d' rest).map fun (fields, rest) => (.object fields, rest)
    else if c = '$' then (name rest).map fun (n, rest) => (.ref n, rest)
    else if c = '"' then (string (c :: rest)).map fun (s, rest) => (.string s, rest)
    else if c = '-' ∨ Decimal.isDigit c then
      (number (c :: rest)).map fun (n, rest) => (.ofNumber n, rest)
    else if isNameStart c then (name (c :: rest)).map fun (n, rest) => (.ofName n, rest)
    else .error (.unexpectedChar c)

theorem map_shorter {α β : Type} {f : α × List Char → β × List Char}
    {x : Except Malformed (α × List Char)} {n : Nat} {b : β} {rest : List Char}
    (hf : ∀ a r, (f (a, r)).2 = r)
    (hx : ∀ a r, x = .ok (a, r) → r.length < n) (h : x.map f = .ok (b, rest)) :
    rest.length < n := by
  cases x with
  | error e => cases h
  | ok p =>
    obtain ⟨a, r⟩ := p
    have he : f (a, r) = (b, rest) := by injection h
    have hr : rest = r := by
      have := hf a r
      rw [he] at this
      exact this
    rw [hr]
    exact hx a r rfl

theorem valueRun_shorter {inner : Option (Taker Literal)} {cs rest : List Char} {l : Literal}
    (h : valueRun inner cs = .ok (l, rest)) : rest.length < cs.length := by
  have hle := skipIgnored_length_le cs
  unfold valueRun at h
  split at h
  · cases h
  · next c r hs =>
    rw [hs, List.length_cons] at hle
    split at h
    · split at h
      · cases h
      · exact map_shorter (fun _ _ => rfl)
          (fun a r' hr => Nat.lt_trans (Taker.many_shorter hr) (by omega)) h
    · split at h
      · split at h
        · cases h
        · exact map_shorter (fun _ _ => rfl)
            (fun a r' hr => Nat.lt_trans (Taker.many_shorter hr) (by omega)) h
      · split at h
        · exact map_shorter (fun _ _ => rfl)
            (fun a r' hr => Nat.lt_trans (name_shorter hr) (by omega)) h
        · split at h
          · exact map_shorter (fun _ _ => rfl)
              (fun a r' hr => by
                have := string_shorter hr
                simp only [List.length_cons] at this
                omega) h
          · split at h
            · next hc =>
              have hn : isNumberChar c = true := by
                unfold isNumberChar
                rcases hc with hc | hc <;> simp [hc]
              exact map_shorter (fun _ _ => rfl)
                (fun a r' hr => by
                  have := number_shorter hn hr; simp only [List.length_cons] at this; omega) h
            · split at h
              · exact map_shorter (fun _ _ => rfl)
                  (fun a r' hr => by
                    have := name_shorter hr; simp only [List.length_cons] at this; omega) h
              · cases h

/-- A value in which at most the given number of lists and objects are open at once. -/
def literal : Nat → Taker Literal
  | 0 => ⟨valueRun none, valueRun_shorter⟩
  | n + 1 => ⟨valueRun (some (literal n)), valueRun_shorter⟩

/-- The arguments of a field or a directive, after their opening parenthesis. -/
def arguments (cs : List Char) : Except Malformed (List (String × Literal) × List Char) :=
  (pair (literal maxDepth)).many ')' cs

theorem arguments_shorter {cs rest : List Char} {args : List (String × Literal)}
    (h : arguments cs = .ok (args, rest)) : rest.length < cs.length :=
  Taker.many_shorter h

end Intranet.Graphql
