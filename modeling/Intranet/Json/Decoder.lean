import Intranet.Json.Token

/-!
# Reading values of a wanted shape

A decoder reads one JSON value and makes something of it. The parameter of a decoder is the number
of arrays and objects that may still be opened inside; nesting deeper than 127 is refused. Values
that nobody wants are passed over without that limit.

Records are read from objects, where unknown members are passed over and a member may come only
once, or from arrays with the fields in order.
-/

namespace Intranet.Json

/-- Reads one value of some shape. -/
def Decoder (α : Type) : Type := Nat → Reader α

/-- How many arrays and objects may stand inside one another. -/
def maxDepth : Nat := 127

/-! ## Brackets -/

/-- The end of an array. -/
def closeArray : Reader Unit := do
  blanks
  match ← peek with
  | some 93 => forward
  | some 44 => do
    forward
    blanks
    if (← peek) = some 93 then haltAhead .trailingComma else haltAhead .trailingCharacters
  | some _ => haltAhead .trailingCharacters
  | none => haltAhead .endInArray

/-- The end of an object. -/
def closeObject : Reader Unit := do
  blanks
  match ← peek with
  | some 125 => forward
  | some 44 => haltAhead .trailingComma
  | some _ => haltAhead .trailingCharacters
  | none => haltAhead .endInObject

/-- Whether another item follows in an array; takes the comma before it. -/
def moreItems (first : Bool) : Reader Bool := do
  blanks
  match ← peek with
  | none => haltAhead .endInArray
  | some b =>
    if b = 93 then pure false
    else if first then pure true
    else if b = 44 then do
      forward
      blanks
      match ← peek with
      | some 93 => haltAhead .trailingComma
      | some _ => pure true
      | none => haltAhead .endInValue
    else haltAhead .expectedCommaOrBracket

/-- The name of the next member of an object, if there is one; takes the comma before it. -/
def nextName (first : Bool) : Reader (Option String) := do
  blanks
  match ← peek with
  | none => haltAhead .endInObject
  | some b =>
    if b = 125 then pure none
    else if first then
      if b = 34 then do
        forward
        some <$> stringRest
      else haltAhead .nameNotString
    else if b = 44 then do
      forward
      blanks
      match ← peek with
      | some 34 => do
        forward
        some <$> stringRest
      | some 125 => haltAhead .trailingComma
      | some _ => haltAhead .nameNotString
      | none => haltAhead .endInValue
    else haltAhead .expectedCommaOrBrace

/-- The colon between a name and its value. -/
def colon : Reader Unit := do
  blanks
  match ← peek with
  | some 58 => forward
  | some _ => haltAhead .expectedColon
  | none => haltAhead .endInObject

/-- The items of an array, in reverse on top of those already read. A round takes at least a
byte. -/
def itemsOnto (item : Reader α) : Nat → Nat → List α → Reader (List α)
  | 0, _, done => pure done.reverse
  | rounds + 1, index, done => do
    match ← within (.item index) (do
      if ← moreItems (index = 0) then some <$> item else pure none) with
    | none => pure done.reverse
    | some v => itemsOnto item rounds (index + 1) (v :: done)

/-- The members of an object, each put into what has been read so far. -/
def membersOnto (value : String → σ → Reader σ) : Nat → Bool → σ → Reader σ
  | 0, _, state => pure state
  | rounds + 1, first, state => do
    match ← within .unnamed (nextName first) with
    | none => pure state
    | some name => do
      let state ← value name state
      membersOnto value rounds false state

/-- Opens an array or object if one more may be opened. -/
def opening (depth : Nat) (inside : Nat → Reader α) : Reader α :=
  match depth with
  | 0 => haltAhead .tooDeep
  | depth + 1 => do
    forward
    inside depth

/-! ## Passing over values -/

mutual

/-- Passes over a value. -/
def skipValue : Nat → Reader Unit
  | 0 => haltAhead .endInValue
  | rounds + 1 => do
    blanks
    match ← peek with
    | none => haltAhead .endInValue
    | some b =>
      if b = 110 then do forward; nullRest
      else if b = 116 then do forward; trueRest
      else if b = 102 then do forward; falseRest
      else if b = 45 then do forward; skipNumber
      else if (decimal? b).isSome then skipNumber
      else if b = 34 then do
        forward
        skipString ((← remaining) + 1)
      else if b = 91 then do forward; skipItems rounds true
      else if b = 123 then do forward; skipMembers rounds true
      else haltAhead .expectedValue

/-- Passes over the items of an array and its end. -/
def skipItems : Nat → Bool → Reader Unit
  | 0, _ => haltAhead .endInArray
  | rounds + 1, first => do
    blanks
    match ← peek with
    | none => haltAhead .endInArray
    | some b =>
      if b = 93 then forward
      else if first then do
        skipValue rounds
        skipItems rounds false
      else if b = 44 then do
        forward
        skipValue rounds
        skipItems rounds false
      else haltAhead .expectedCommaOrBracket

/-- Passes over the members of an object and its end. -/
def skipMembers : Nat → Bool → Reader Unit
  | 0, _ => haltAhead .endInObject
  | rounds + 1, first => do
    blanks
    match ← peek with
    | none => haltAhead .endInObject
    | some b =>
      if b = 125 then forward
      else do
        if !first then
          if b = 44 then forward else haltAhead .expectedCommaOrBrace
        blanks
        match ← peek with
        | some 34 => do
          forward
          skipString ((← remaining) + 1)
          colon
          skipValue rounds
          skipMembers rounds false
        | some _ => haltAhead .nameNotString
        | none => haltAhead .endInObject

end

/-- A value that nobody wants. -/
def skipAny : Reader Unit := do
  skipValue (2 * (← remaining) + 2)

/-! ## Any value -/

/-- Any JSON value. -/
def anyValue (depth : Nat) : Reader Json := do
    blanks
    match ← peek with
    | none => haltAhead .endInValue
    | some b =>
      if b = 110 then do forward; nullRest; pure .null
      else if b = 116 then do forward; trueRest; pure (.bool true)
      else if b = 102 then do forward; falseRest; pure (.bool false)
      else if b = 45 then do forward; Number.toJson <$> number true
      else if (decimal? b).isSome then Number.toJson <$> number false
      else if b = 34 then do forward; .str <$> stringRest
      else if b = 91 then
        match depth with
        | 0 => haltAhead .tooDeep
        | depth + 1 => do
          forward
          let rounds ← remaining
          .arr <$> enclosed (itemsOnto (anyValue depth) (rounds + 1) 0 []) closeArray
      else if b = 123 then
        match depth with
        | 0 => haltAhead .tooDeep
        | depth + 1 => do
          forward
          let rounds ← remaining
          .obj <$> enclosed
            (membersOnto
              (fun name members => within (.member name) do
                colon
                let v ← anyValue depth
                pure (Members.insert name v members))
              (rounds + 1) true [])
            closeObject
      else haltAhead .expectedValue

/-! ## Wanted shapes -/

namespace Decoder

/-- Any value. -/
def any : Decoder Json := anyValue

/-- A value of another kind than the wanted one. -/
def otherKind (expected : String) : Reader α := do
  match ← peek with
  | none => haltAhead .expectedValue
  | some b =>
    if b = 110 then do forward; nullRest; refuse (.kind .null expected)
    else if b = 116 then do forward; trueRest; refuse (.kind (.bool true) expected)
    else if b = 102 then do forward; falseRest; refuse (.kind (.bool false) expected)
    else if b = 45 then do
      forward
      refuse (.kind (← number true).toFound expected)
    else if (decimal? b).isSome then do
      refuse (.kind (← number false).toFound expected)
    else if b = 34 then do
      forward
      refuse (.kind (.text (← stringRest)) expected)
    else if b = 91 then refuse (.kind .array expected)
    else if b = 123 then refuse (.kind .object expected)
    else haltAhead .expectedValue

/-- The first byte of the value that follows. -/
def firstByte : Reader UInt8 := do
  blanks
  match ← peek with
  | none => haltAhead .endInValue
  | some b => pure b

/-- A string of a form that `parse` knows; the wording of what is wrong with it comes from
there. -/
def formatted (expected : String) (parse : String → Except String α) : Decoder α := fun _ =>
  settled do
    if (← firstByte) = 34 then do
      forward
      match parse (← stringRest) with
      | .ok a => pure a
      | .error reason => refuse (.content reason)
    else otherKind expected

/-- A string. -/
def text : Decoder String := formatted "a string" .ok

/-- A boolean. -/
def flag : Decoder Bool := fun _ =>
  settled do
    let b ← firstByte
    if b = 116 then do forward; trueRest; pure true
    else if b = 102 then do forward; falseRest; pure false
    else otherKind "a boolean"

/-- A whole number from zero to `2 ^ 64 - 1`. -/
def count : Decoder UInt64 := fun _ =>
  settled do
    let b ← firstByte
    let n ←
      if b = 45 then do forward; number true
      else if (decimal? b).isSome then number false
      else otherKind "u64"
    match n with
    | .int n => if 0 ≤ n then pure (UInt64.ofNat n.toNat) else refuse (.value (.int n) "u64")
    | .float d => refuse (.kind (.float d) "u64")

/-- An object with any members. -/
def members : Decoder Members := fun depth =>
  settled do
    if (← firstByte) = 123 then
      opening depth fun depth => do
        let rounds ← remaining
        enclosed
          (membersOnto
            (fun name members => within (.member name) do
              colon
              let v ← anyValue depth
              pure (Members.insert name v members))
            (rounds + 1) true [])
          closeObject
    else otherKind "a map"

/-- Null or a value of some shape. -/
def nullable (shape : Decoder α) : Decoder (Option α) := fun depth => do
  blanks
  if (← peek) = some 110 then do
    forward
    nullRest
    pure none
  else some <$> shape depth

/-- An array of values of one shape. -/
def list (shape : Decoder α) : Decoder (List α) := fun depth =>
  settled do
    if (← firstByte) = 91 then
      opening depth fun depth => do
        let rounds ← remaining
        enclosed (itemsOnto (shape depth) (rounds + 1) 0 []) closeArray
    else otherKind "a sequence"

/-! ## Records -/

/-- A field of a record under construction. -/
structure Field (σ : Type) where
  name : String
  /-- Reads the value and puts it in. -/
  read : Decoder (σ → σ)
  /-- Whether the value has been put in. -/
  given : σ → Bool
  /-- An object without this member is refused. -/
  required : Bool
  /-- An array may end before this item. -/
  mayBeCut : Bool

/-- A field whose value has a place of its own in the record under construction. -/
def Field.slot (name : String) (shape : Decoder α) (put : Option α → σ → σ) (get : σ → Option α)
    (required mayBeCut : Bool) : Field σ :=
  ⟨name, fun depth => do
      let a ← shape depth
      pure (put (some a)), fun state => (get state).isSome, required, mayBeCut⟩

/-- The field of a name. -/
def Field.named? (name : String) (fields : List (Field σ)) : Option (Field σ) :=
  fields.find? (·.name = name)

/-- The member of a record in an object. -/
def recordMember (fields : List (Field σ)) (depth : Nat) (name : String) (state : σ) : Reader σ :=
  match Field.named? name fields with
  | some field =>
    if field.given state then refuse (.duplicate name)
    else within (.member name) do
      colon
      let put ← field.read depth
      pure (put state)
  | none => within (.member name) do
    colon
    skipAny
    pure state

/-- The items of a record in an array. -/
def recordItems (size : Nat) (shape : String) (depth : Nat) :
    Nat → List (Field σ) → σ → Reader σ
  | _, [], state => pure state
  | index, field :: rest, state => do
    match ← within (.item index) (do
      if ← moreItems (index = 0) then some <$> field.read depth else pure none) with
    | some put => recordItems size shape depth (index + 1) rest (put state)
    | none =>
      if field.mayBeCut then recordItems size shape depth (index + 1) rest state
      else
        let unit := if size = 1 then " element" else " elements"
        refuse (.length index (shape ++ " with " ++ toString size ++ unit))

/-- The first required field that is missing is refused. -/
def requireAll : List (Field σ) → σ → Reader σ
  | [], state => pure state
  | field :: rest, state =>
    if field.required && !field.given state then refuse (.missing field.name)
    else requireAll rest state

/-- A record: `name` is what messages call it, `blank` has no field put in yet, and `finish` makes
the result once all required fields are there. -/
def record (name : String) (fields : List (Field σ)) (blank : σ) (finish : σ → α) : Decoder α :=
  fun depth => settled do
    let shape := "struct " ++ name
    let b ← firstByte
    if b = 123 then
      opening depth fun depth => do
        let rounds ← remaining
        let state ← enclosed
          (do
            let state ← membersOnto (recordMember fields depth) (rounds + 1) true blank
            requireAll fields state)
          closeObject
        pure (finish state)
    else if b = 91 then
      opening depth fun depth => do
        let state ← enclosed (recordItems fields.length shape depth 0 fields blank) closeArray
        pure (finish state)
    else otherKind shape

end Decoder

/-! ## Whole texts -/

/-- Blanks up to the end of the text. -/
def endOfText : Reader Unit := do
  blanks
  match ← peek with
  | none => pure ()
  | some _ => haltAhead .trailingCharacters

/-- The failure that a problem has become. -/
def Problem.toFailure (p : Problem) (c : Cursor) : Failure :=
  let (line, column) := p.place.getD (c.line, c.column)
  ⟨p.cause, line, column, p.path⟩

/-- Reads a whole text of one value. -/
def Decoder.run (shape : Decoder α) (bytes : List UInt8) : Except Failure α :=
  match shape maxDepth (Cursor.start bytes) with
  | .failed p c => .error (p.toFailure c)
  | .done a c =>
    match endOfText c with
    | .failed p c => .error (p.toFailure c)
    | .done () _ => .ok a

/-- Reads a whole string of one value. -/
def Decoder.runText (shape : Decoder α) (s : String) : Except Failure α :=
  shape.run (Utf8.encode s)

/-- Reads a whole string as any value. -/
def parse (s : String) : Except Failure Json := Decoder.any.runText s

end Intranet.Json
