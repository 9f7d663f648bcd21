import Intranet.Json.Basic
import Intranet.Number.Shortest
import Intranet.Text.Hex

/-!
# Compact JSON text

Values are written without blanks, members in the order of their names. In strings the quote, the
backslash and the controls below U+0020 are escaped and nothing else.
-/

namespace Intranet.Json

/-- One character inside a string. -/
def escape (c : Char) : List Char :=
  if c = '"' then ['\\', '"']
  else if c = '\\' then ['\\', '\\']
  else if c = '\x08' then ['\\', 'b']
  else if c = '\x0c' then ['\\', 'f']
  else if c = '\n' then ['\\', 'n']
  else if c = '\r' then ['\\', 'r']
  else if c = '\t' then ['\\', 't']
  else if c.toNat < 0x20 then
    ['\\', 'u', '0', '0', Hex.digit (c.toNat / 16), Hex.digit (c.toNat % 16)]
  else [c]

/-- A string with its quotes. -/
def quoteL (s : String) : List Char := '"' :: s.toList.flatMap escape ++ ['"']

/-- The digits of an integer. -/
def intL (n : Int) : List Char :=
  if n < 0 then '-' :: Nat.toDigits 10 n.natAbs else Nat.toDigits 10 n.natAbs

mutual

/-- The characters of a value's text. -/
def textL : Json → List Char
  | .null => ['n', 'u', 'l', 'l']
  | .bool true => ['t', 'r', 'u', 'e']
  | .bool false => ['f', 'a', 'l', 's', 'e']
  | .int n => intL n
  | .float d => d.text.toList
  | .str s => quoteL s
  | .arr items => '[' :: itemsL items ++ [']']
  | .obj members => '{' :: membersL members ++ ['}']

/-- Items with commas between them. -/
def itemsL : List Json → List Char
  | [] => []
  | [v] => textL v
  | v :: w :: rest => textL v ++ ',' :: itemsL (w :: rest)

/-- Members with commas between them. -/
def membersL : List (String × Json) → List Char
  | [] => []
  | [(k, v)] => quoteL k ++ ':' :: textL v
  | (k, v) :: w :: rest => quoteL k ++ ':' :: (textL v ++ ',' :: membersL (w :: rest))

end

/-- The text of a value. -/
def text (v : Json) : String := String.ofList (textL v)

end Intranet.Json
