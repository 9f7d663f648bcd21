import Intranet.Graphql.Problem
import Intranet.Number.Word
import Intranet.Text.Hex

/-!
# Tokens of a GraphQL document

Each function works on the characters still to be read and gives back those after what it took.
Names, punctuation, strings and numbers take at least one character; the small lemmas beside them
say so, and the recursion of the larger parsers rests on them.
-/

namespace Intranet.Graphql

/-! ## What does not count -/

/-- Blanks and commas between tokens, and the byte order mark. -/
def isIgnored (c : Char) : Bool :=
  c = ' ' || c = '\t' || c = '\n' || c = '\r' || c = ',' || c = '\ufeff'

/-- Past everything that does not count: ignored characters, and comments up to the end of their
line. The flag says whether a comment is open. -/
def skipFrom : Bool → List Char → List Char
  | _, [] => []
  | true, c :: cs => if c = '\n' then skipFrom false cs else skipFrom true cs
  | false, c :: cs =>
    if isIgnored c then skipFrom false cs
    else if c = '#' then skipFrom true cs
    else c :: cs

/-- Past everything that does not count. -/
def skipIgnored (cs : List Char) : List Char := skipFrom false cs

theorem skipFrom_length_le (open_ : Bool) (cs : List Char) :
    (skipFrom open_ cs).length ≤ cs.length := by
  induction cs generalizing open_ with
  | nil => cases open_ <;> simp [skipFrom]
  | cons c cs ih =>
    cases open_ with
    | true =>
      simp only [skipFrom]
      split
      · exact Nat.le_succ_of_le (ih false)
      · exact Nat.le_succ_of_le (ih true)
    | false =>
      simp only [skipFrom]
      split
      · exact Nat.le_succ_of_le (ih false)
      · split
        · exact Nat.le_succ_of_le (ih true)
        · exact Nat.le_refl _

theorem skipIgnored_length_le (cs : List Char) : (skipIgnored cs).length ≤ cs.length :=
  skipFrom_length_le false cs

/-! ## Punctuation -/

/-- Takes a character if it comes next. -/
def eat? (c : Char) (cs : List Char) : Option (List Char) :=
  match skipIgnored cs with
  | d :: rest => if d = c then some rest else none
  | [] => none

theorem eat?_shorter {c : Char} {cs rest : List Char} (h : eat? c cs = some rest) :
    rest.length < cs.length := by
  have hle := skipIgnored_length_le cs
  unfold eat? at h
  split at h
  · next d r hs =>
    split at h
    · cases h; rw [hs] at hle; simp at hle; omega
    · cases h
  · cases h

/-- Takes a character that has to come next. -/
def expect (c : Char) (cs : List Char) : Except Malformed (List Char) :=
  match eat? c cs with
  | some rest => .ok rest
  | none => .error (.expected c (skipIgnored cs).head?)

theorem expect_shorter {c : Char} {cs rest : List Char} (h : expect c cs = .ok rest) :
    rest.length < cs.length := by
  unfold expect at h
  split at h
  · next he => cases h; exact eat?_shorter he
  · cases h

/-! ## Names -/

/-- A character that can start a name. -/
def isNameStart (c : Char) : Bool :=
  c = '_' || ('a' ≤ c && c ≤ 'z') || ('A' ≤ c && c ≤ 'Z')

/-- A character that can stand in a name. -/
def isNameChar (c : Char) : Bool := isNameStart c || Decimal.isDigit c

/-- A name. -/
def name (cs : List Char) : Except Malformed (String × List Char) :=
  match skipIgnored cs with
  | [] => .error .unexpectedEnd
  | c :: rest =>
    if isNameStart c then
      .ok (String.ofList (c :: rest.takeWhile isNameChar), rest.dropWhile isNameChar)
    else .error (.unexpectedChar c)

theorem name_shorter {cs rest : List Char} {n : String} (h : name cs = .ok (n, rest)) :
    rest.length < cs.length := by
  have hle := skipIgnored_length_le cs
  unfold name at h
  split at h
  · cases h
  · next c r hs =>
    split at h
    · cases h
      have := (r.dropWhile_sublist isNameChar).length_le
      rw [hs] at hle
      simp at hle
      omega
    · cases h

/-! ## Strings -/

/-- The character that a letter after a backslash stands for. -/
def escapeLetter? (c : Char) : Option Char :=
  if c = '"' ∨ c = '\\' ∨ c = '/' then some c
  else if c = 'b' then some '\x08'
  else if c = 'f' then some '\x0c'
  else if c = 'n' then some '\n'
  else if c = 'r' then some '\r'
  else if c = 't' then some '\t'
  else none

/-- The character with a code point; surrogates are no characters. -/
def charOf? (n : Nat) : Option Char := if n.isValidChar then some (Char.ofNat n) else none

/-- The code point written after a backslash and the letter `u`: four digits, of which the first
may be a plus sign. -/
def codePoint? (a b c d : Char) : Option Char :=
  (if a = '+' then Hex.natL? [b, c, d] else Hex.natL? [a, b, c, d]).bind charOf?

/-- The characters of a string up to its closing quote, on top of those already read. -/
def stringOnto (done : List Char) : List Char → Except Malformed (List Char × List Char)
  | [] => .error .openString
  | '\\' :: [] => .error .openString
  | '\\' :: 'u' :: a :: b :: c :: d :: rest =>
    match codePoint? a b c d with
    | some x => stringOnto (x :: done) rest
    | none => .error .badCodePoint
  | '\\' :: e :: rest =>
    if e = 'u' then .error .badCodePoint
    else
      match escapeLetter? e with
      | some x => stringOnto (x :: done) rest
      | none => .error (.badEscape e)
  | c :: rest =>
    if c = '"' then .ok (done.reverse, rest)
    else if c = '\n' then .error .brokenString
    else stringOnto (c :: done) rest

/-- The characters of a block string up to its three closing quotes, on top of those already
read. -/
def blockOnto (done : List Char) : List Char → Except Malformed (List Char × List Char)
  | [] => .error .openString
  | '"' :: '"' :: '"' :: rest => .ok (done.reverse, rest)
  | c :: rest => blockOnto (c :: done) rest

/-- A string or a block string, from its opening quote on. -/
def string : List Char → Except Malformed (String × List Char)
  | '"' :: '"' :: '"' :: rest => (blockOnto [] rest).map fun (s, rest) => (String.ofList s, rest)
  | _ :: rest => (stringOnto [] rest).map fun (s, rest) => (String.ofList s, rest)
  | [] => .error .openString

theorem stringOnto_length_le {done cs s rest : List Char}
    (h : stringOnto done cs = .ok (s, rest)) : rest.length ≤ cs.length := by
  fun_induction stringOnto done cs with
  | case1 => cases h
  | case2 => cases h
  | case3 done a b c d r x hx ih => have := ih h; simp only [List.length_cons]; omega
  | case4 => cases h
  | case5 => cases h
  | case6 done e r _ he x hx ih => have := ih h; simp only [List.length_cons]; omega
  | case7 => cases h
  | case8 => cases h; simp
  | case9 => cases h
  | case10 done c r _ _ _ hq hn ih => have := ih h; simp only [List.length_cons]; omega

theorem blockOnto_length_le {done cs s rest : List Char}
    (h : blockOnto done cs = .ok (s, rest)) : rest.length ≤ cs.length := by
  fun_induction blockOnto done cs with
  | case1 => cases h
  | case2 done r => cases h; simp only [List.length_cons]; omega
  | case3 done c r hn ih => have := ih h; simp only [List.length_cons]; omega

theorem string_shorter {cs rest : List Char} {s : String} (h : string cs = .ok (s, rest)) :
    rest.length < cs.length := by
  unfold string at h
  split at h
  · next r =>
    cases hb : blockOnto [] r with
    | error e => rw [hb] at h; cases h
    | ok p =>
      rw [hb] at h
      cases h
      have := blockOnto_length_le hb
      simp only [List.length_cons]; omega
  · next c r _ =>
    cases hb : stringOnto [] r with
    | error e => rw [hb] at h; cases h
    | ok p =>
      rw [hb] at h
      cases h
      have := stringOnto_length_le hb
      simp only [List.length_cons]; omega
  · cases h

/-! ## Numbers -/

/-- A character that can stand in a number. -/
def isNumberChar (c : Char) : Bool :=
  Decimal.isDigit c || c = '-' || c = '+' || c = '.' || c = 'e' || c = 'E'

/-- A character that makes a number a floating point number. -/
def isFloatMark (c : Char) : Bool := c = '.' || c = 'e' || c = 'E'

/-- A number of a document. -/
inductive Number where
  | int (n : Int)
  | float (d : Double)
  deriving DecidableEq

/-- The longest run of number characters. It is an integer of 64 bits, or with a point or an
exponent a finite double; any other run is refused as a whole. -/
def number (cs : List Char) : Except Malformed (Number × List Char) :=
  let run := cs.takeWhile isNumberChar
  let rest := cs.dropWhile isNumberChar
  let found :=
    if run.any isFloatMark then (Decimal.doubleL? run).map Number.float
    else (Decimal.int64L? run).map Number.int
  match found with
  | some n => .ok (n, rest)
  | none => .error (.badNumber (String.ofList run))

theorem number_shorter {c : Char} {cs rest : List Char} {n : Number} (hc : isNumberChar c = true)
    (h : number (c :: cs) = .ok (n, rest)) : rest.length < (c :: cs).length := by
  have hd : (c :: cs).dropWhile isNumberChar = cs.dropWhile isNumberChar := by
    rw [List.dropWhile_cons, if_pos hc]
  unfold number at h
  simp only [hd] at h
  have hle := (cs.dropWhile_sublist isNumberChar).length_le
  split at h
  · cases h; simp only [List.length_cons]; omega
  · cases h

end Intranet.Graphql
