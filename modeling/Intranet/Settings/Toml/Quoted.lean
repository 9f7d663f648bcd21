import Intranet.Text.Hex

/-!
# Quoted text of TOML

The four kinds of strings: between double quotes with escapes, between single quotes as they stand,
and both over several lines between three quotes.
-/

namespace Intranet.Settings.Toml

/-- A character that a string or a comment may hold: no control character other than the tab. -/
def isPlain (c : Char) : Bool := c = '\t' || (' ' ≤ c && c ≠ '\x7f')

/-- A blank within a line. -/
def isSpace (c : Char) : Bool := c = ' ' || c = '\t'

/-! ## Escapes -/

/-- The character with a code point that digits give. -/
def scalar? (digits : List Char) : Option Char := do
  let n ← Hex.natL? digits
  if h : n.isValidChar then some (Char.ofNatAux n h) else none

/-- The character that a letter after a backslash stands for. -/
def escaped? : Char → Option Char
  | 'b' => some '\x08'
  | 't' => some '\t'
  | 'n' => some '\n'
  | 'f' => some '\x0c'
  | 'r' => some '\r'
  | '"' => some '"'
  | '\\' => some '\\'
  | _ => none

/-- A text with its escapes undone. Newlines may stand in it only where they are allowed. -/
def unescape? (lines : Bool) : List Char → Option (List Char)
  | [] => some []
  | ['\\'] => none
  | '\\' :: 'u' :: a :: b :: c :: d :: rest => do
    return (← scalar? [a, b, c, d]) :: (← unescape? lines rest)
  | '\\' :: 'U' :: a :: b :: c :: d :: e :: f :: g :: h :: rest => do
    return (← scalar? [a, b, c, d, e, f, g, h]) :: (← unescape? lines rest)
  | '\\' :: c :: rest => do return (← escaped? c) :: (← unescape? lines rest)
  | c :: rest =>
    if isPlain c || (lines && c = '\n') then (unescape? lines rest).map (c :: ·) else none

/-! ## Lines -/

/-- Newlines of two characters become newlines of one. -/
def unifyNewlines : List Char → List Char
  | '\r' :: '\n' :: rest => '\n' :: unifyNewlines rest
  | c :: rest => c :: unifyNewlines rest
  | [] => []

set_option linter.unusedVariables false in
/-- A text in which a backslash at the end of a line takes away the blanks and newlines after
it. -/
def joinLines (cs : List Char) : List Char :=
  match cs with
  | [] => []
  | '\\' :: rest =>
    match h : rest.dropWhile isSpace with
    | '\n' :: after => joinLines (after.dropWhile fun c => isSpace c || c = '\n')
    | _ =>
      match rest with
      | [] => ['\\']
      | c :: rest => '\\' :: c :: joinLines rest
  | c :: rest => c :: joinLines rest
termination_by cs.length
decreasing_by
  · have h₁ := (List.dropWhile_suffix isSpace (l := rest)).length_le
    have h₂ := (List.dropWhile_suffix (fun c => isSpace c || c = '\n') (l := after)).length_le
    rw [h, List.length_cons] at h₁
    rw [List.length_cons]
    omega
  · simp only [List.length_cons]; omega
  · simp

/-- A text without the newline at its start. -/
def dropNewline : List Char → List Char
  | '\n' :: rest => rest
  | cs => cs

/-! ## Where strings end -/

/-- What stands before the double quote that ends a string, escapes left as they are, and what
follows. -/
def untilQuote : List Char → Option (List Char × List Char)
  | [] => none
  | ['\\'] => none
  | '\\' :: c :: rest => (untilQuote rest).map fun (body, after) => ('\\' :: c :: body, after)
  | c :: rest =>
    if c = '"' then some ([], rest)
    else (untilQuote rest).map fun (body, after) => (c :: body, after)

/-- The quotes that still belong to a text of several lines after the three that end it: two at
most. -/
def extraQuotes (q : Char) (cs : List Char) : List Char × List Char :=
  let extra := (cs.take 2).takeWhile (· = q)
  (extra, cs.drop extra.length)

/-- What stands before the three quotes that end a text of several lines, and what follows.
Backslashes escape the next character if they are to. -/
def untilQuotes (q : Char) (escapes : Bool) : List Char → Option (List Char × List Char)
  | [] => none
  | [_] => none
  | [_, _] => none
  | a :: b :: c :: rest =>
    if a = q ∧ b = q ∧ c = q then some (extraQuotes q rest)
    else if escapes ∧ a = '\\' then
      (untilQuotes q escapes (c :: rest)).map fun (body, after) => (a :: b :: body, after)
    else (untilQuotes q escapes (b :: c :: rest)).map fun (body, after) => (a :: body, after)

/-! ## Strings -/

/-- A string within a line, from its quote on, and what follows. -/
def lineString? : List Char → Option (String × List Char)
  | '"' :: rest => do
    let (body, after) ← untilQuote rest
    return (String.ofList (← unescape? false body), after)
  | '\'' :: rest =>
    match rest.span (· ≠ '\'') with
    | (body, _ :: after) => if body.all isPlain then some (String.ofList body, after) else none
    | _ => none
  | _ => none

/-- A string of any kind, from its quote on, and what follows. -/
def string? : List Char → Option (String × List Char)
  | '"' :: '"' :: '"' :: rest => do
    let (body, after) ← untilQuotes '"' true rest
    let text ← unescape? true (joinLines (dropNewline (unifyNewlines body)))
    return (String.ofList text, after)
  | '\'' :: '\'' :: '\'' :: rest => do
    let (body, after) ← untilQuotes '\'' false rest
    let text := dropNewline (unifyNewlines body)
    if text.all fun c => isPlain c || c = '\n' then return (String.ofList text, after) else none
  | cs => lineString? cs

end Intranet.Settings.Toml
