import Intranet.Text.Hex

/-!
# Universally unique identifiers

An identifier is written in five groups of hexadecimal digits. It may be read from that form, bare,
in braces or as a URN, and from its 32 digits alone.
-/

namespace Intranet

/-- A universally unique identifier. -/
structure Uuid where
  bits : BitVec 128
  deriving DecidableEq, Repr, Inhabited

namespace Uuid

/-! ## Written form -/

/-- The 32 digits. -/
def digits (u : Uuid) : List Char := (Hex.ofNat 32 u.bits.toNat).toList

/-- A hyphen after the eighth, twelfth, sixteenth and twentieth digit. -/
def hyphenate (ds : List Char) : List Char :=
  ds.take 8 ++ '-' :: (ds.drop 8).take 4 ++ '-' :: (ds.drop 12).take 4 ++
    '-' :: (ds.drop 16).take 4 ++ '-' :: ds.drop 20

/-- The five groups. -/
def text (u : Uuid) : String := String.ofList (hyphenate u.digits)

/-! ## Reading -/

/-- Why a text is no identifier. -/
inductive Misread where
  | badChar (found : Char) (position : Nat)
  | badLength (found : Nat)
  | badGroupCount (found : Nat)
  | badGroupLength (group found : Nat)
  deriving DecidableEq, Repr

/-- The lengths of the groups. -/
def groupLengths : List Nat := [8, 4, 4, 4, 12]

/-- The text for what is wrong. -/
def Misread.message : Misread → String
  | badChar c position =>
    "invalid character: expected an optional prefix of \x60urn:uuid:\x60 followed by " ++
      "[0-9a-fA-F-], found \x60" ++ String.singleton c ++ "\x60 at " ++ toString position
  | badLength found =>
    "invalid length: expected length 32 for simple format, found " ++ toString found
  | badGroupCount found => "invalid group count: expected 5, found " ++ toString found
  | badGroupLength group found =>
    "invalid group length in group " ++ toString group ++ ": expected " ++
      toString (groupLengths.getD group 0) ++ ", found " ++ toString found

/-- The identifier with 32 digits. -/
def ofDigits? (ds : List Char) : Option Uuid :=
  if ds.length = 32 then (Hex.natL? ds).map fun n => ⟨BitVec.ofNat 128 n⟩ else none

/-- The identifier written in five groups. -/
def ofGroups? (cs : List Char) : Option Uuid :=
  let ds := cs.filter (· ≠ '-')
  if cs = hyphenate ds then ofDigits? ds else none

/-- What a text holds apart from braces or the start of a URN, the bytes before that, and whether
it was bare. -/
def stripped (cs : List Char) : List Char × Nat × Bool :=
  match cs with
  | '\x7b' :: rest =>
    if rest.getLast? = some '\x7d' then (rest.dropLast, 1, false) else (cs, 0, true)
  | 'u' :: 'r' :: 'n' :: ':' :: 'u' :: 'u' :: 'i' :: 'd' :: ':' :: rest => (rest, 9, false)
  | _ => (cs, 0, true)

/-- The first character that cannot stand in an identifier, and its place in bytes. -/
def firstBad? : Nat → List Char → Option (Char × Nat)
  | _, [] => none
  | at_, c :: rest =>
    if c = '-' || Hex.isDigit c then firstBad? (at_ + c.utf8Size) rest else some (c, at_)

/-- The first group of a wrong length; when the first four are right it is the last one. -/
def badGroup (total : Nat) : Nat → List Nat → List Nat → Misread
  | group, [_], _ => .badGroupLength group (total - 24)
  | group, found :: rest, expected :: others =>
    if found = expected then badGroup total (group + 1) rest others
    else .badGroupLength group found
  | group, [], _ => .badGroupLength group 0
  | group, found :: _, [] => .badGroupLength group found

/-- What is wrong with a text that is no identifier. -/
def diagnose (cs : List Char) : Misread :=
  let (inner, before, bare) := stripped cs
  match firstBad? before inner with
  | some (c, at_) => .badChar c (at_ + 1)
  | none =>
    let groups := inner.splitOn '-'
    if groups.length = 1 ∧ bare then .badLength cs.length
    else if groups.length ≠ 5 then .badGroupCount groups.length
    else badGroup cs.length 0 (groups.map List.length) groupLengths

/-- The identifier that a text stands for, in one of its four forms. -/
def ofText? (s : String) : Option Uuid :=
  let cs := s.toList
  let (inner, _, bare) := stripped cs
  match ofGroups? inner with
  | some u => some u
  | none => if bare then ofDigits? inner else none

/-- The identifier that a text stands for, or what is wrong with it. -/
def ofText (s : String) : Except Misread Uuid :=
  match ofText? s with
  | some u => .ok u
  | none => .error (diagnose s.toList)

end Uuid

end Intranet
