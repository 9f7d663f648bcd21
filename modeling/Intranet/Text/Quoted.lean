import Intranet.Text.Visible
import Intranet.Text.Hex

/-!
# Quoted text

Text as it is shown in messages: between double quotes, with a backslash before quotes and
backslashes, the usual letters for tab, return and newline, and the code point in braces for every
character that would not be seen.
-/

namespace Intranet.Text

/-- One character of a quoted text. -/
def quoteChar (c : Char) : List Char :=
  if c = '\x00' then ['\\', '0']
  else if c = '\t' then ['\\', 't']
  else if c = '\r' then ['\\', 'r']
  else if c = '\n' then ['\\', 'n']
  else if c = '"' then ['\\', '"']
  else if c = '\\' then ['\\', '\\']
  else if isShown c then [c]
  else ['\\', 'u', '\x7b'] ++ Nat.toDigits 16 c.toNat ++ ['\x7d']

/-- The characters of a quoted text. -/
def quoteL (cs : List Char) : List Char := '"' :: cs.flatMap quoteChar ++ ['"']

/-- A text in quotes. -/
def quote (s : String) : String := String.ofList (quoteL s.toList)

end Intranet.Text
