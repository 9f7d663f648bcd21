/-!
# Blank characters

The characters with the Unicode property White_Space, and the trimming and emptiness tests built on
them. U+200B, U+2060 and U+FEFF do not have the property and count as text.
-/

namespace Intranet.Text

/-- A character with the Unicode property White_Space. -/
def isBlank (c : Char) : Bool :=
  let n := c.toNat
  (9 ≤ n && n ≤ 13) || n = 0x20 || n = 0x85 || n = 0xA0 || n = 0x1680 ||
    (0x2000 ≤ n && n ≤ 0x200A) || n = 0x2028 || n = 0x2029 || n = 0x202F || n = 0x205F ||
    n = 0x3000

/-- A text without its leading blanks. -/
def trimStartL (cs : List Char) : List Char := cs.dropWhile isBlank

/-- A text without its trailing blanks. -/
def trimEndL (cs : List Char) : List Char := (cs.reverse.dropWhile isBlank).reverse

/-- A text without blanks at either end. -/
def trimL (cs : List Char) : List Char := trimEndL (trimStartL cs)

/-- A string without blanks at either end. -/
def trim (s : String) : String := String.ofList (trimL s.toList)

/-- A string of blanks only, the empty one included. -/
def isBlankText (s : String) : Bool := s.toList.all isBlank

/-- Every character that core calls whitespace is blank. -/
theorem isBlank_of_isWhitespace {c : Char} (h : c.isWhitespace = true) : isBlank c = true := by
  simp only [Char.isWhitespace, Bool.or_eq_true, decide_eq_true_eq] at h
  rcases h with ((rfl | rfl) | rfl) | rfl <;> rfl

end Intranet.Text
