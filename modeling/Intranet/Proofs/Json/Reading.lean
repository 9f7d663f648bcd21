import Intranet.Json.Decoder
import Intranet.Json.Printer
import Intranet.Proofs.Utf8

/-!
# Printed text is read back

What a reader takes from the front of a text is said by `Reads`, without a word about lines and
columns: those only matter to what a failure is told about. One lemma for each reader says which
bytes it takes, and they are put together in the order in which the readers are.

* `reads_stringRest` — a string is read from its printed form, whatever characters it has;
* `partsL`, `EndsValue` — parts with commas between them, and where a value is over;
* `Fills`, `leads_membersOnto`, `reads_membersOnto` — the members of an object, one after the
  other;
* `reads_record` — a record is read from an object with its fields;
* `runText_of_reads` — and a whole text of one value.
-/

namespace Intranet.Json

variable {α β σ : Type}

/-! ## What a reader takes -/

/-- At `before` the reader makes `a` of what comes before `after`, on whatever line and column. -/
def Reads (r : Reader α) (before : List UInt8) (a : α) (after : List UInt8) : Prop :=
  ∀ line column, ∃ line' column', r ⟨before, line, column⟩ = .done a ⟨after, line', column'⟩

section Readers

variable {r : Reader α} {f : α → Reader β} {a : α} {b : β} {x y z rest : List UInt8} {byte : UInt8}

theorem reads_pure (a : α) (x : List UInt8) : Reads (pure a : Reader α) x a x :=
  fun line column => ⟨line, column, rfl⟩

theorem Reads.bind (hr : Reads r x a y) (hf : Reads (f a) y b z) : Reads (r >>= f) x b z := by
  intro line column
  obtain ⟨line₁, column₁, h₁⟩ := hr line column
  obtain ⟨line₂, column₂, h₂⟩ := hf line₁ column₁
  refine ⟨line₂, column₂, ?_⟩
  show Reader.bind r f _ = _
  rw [Reader.bind, h₁]
  exact h₂

theorem Reads.map {g : α → β} (hr : Reads r x a y) : Reads (g <$> r) x (g a) y :=
  hr.bind (reads_pure _ _)

theorem reads_peek (x : List UInt8) : Reads peek x x.head? x :=
  fun line column => ⟨line, column, rfl⟩

theorem reads_remaining (x : List UInt8) : Reads remaining x x.length x :=
  fun line column => ⟨line, column, rfl⟩

theorem forward_cons (byte : UInt8) (rest : List UInt8) (line column : Nat) :
    ∃ line' column', Cursor.forward ⟨byte :: rest, line, column⟩ = ⟨rest, line', column'⟩ := by
  by_cases h : byte = 10
  · exact ⟨line + 1, 0, by simp [Cursor.forward, h]⟩
  · exact ⟨line, column + 1, by simp [Cursor.forward, h]⟩

theorem reads_forward (byte : UInt8) (rest : List UInt8) :
    Reads forward (byte :: rest) () rest := by
  intro line column
  obtain ⟨line', column', h⟩ := forward_cons byte rest line column
  exact ⟨line', column', congrArg (Outcome.done ()) h⟩

/-- A byte that is no blank ends the blanks before it. -/
def IsToken (byte : UInt8) : Prop := byte ≠ 10 ∧ byte ≠ 32 ∧ byte ≠ 9 ∧ byte ≠ 13

instance (byte : UInt8) : Decidable (IsToken byte) := inferInstanceAs (Decidable (_ ∧ _))

theorem reads_blanks (h : IsToken byte) (rest : List UInt8) :
    Reads blanks (byte :: rest) () (byte :: rest) := by
  intro line column
  refine ⟨line, column, ?_⟩
  show Outcome.done () (Cursor.skipBlanks.go (byte :: rest) line column) = _
  simp [Cursor.skipBlanks.go, h.1, h.2.1, h.2.2.1, h.2.2.2]

theorem reads_blanks_nil : Reads blanks [] () [] :=
  fun line column => ⟨line, column, rfl⟩

theorem Reads.settled (hr : Reads r x a y) : Reads (settled r) x a y := by
  intro line column
  obtain ⟨line', column', h⟩ := hr line column
  refine ⟨line', column', ?_⟩
  rw [Json.settled, h]

theorem Reads.within (step : Step) (hr : Reads r x a y) : Reads (within step r) x a y := by
  intro line column
  obtain ⟨line', column', h⟩ := hr line column
  refine ⟨line', column', ?_⟩
  rw [Json.within, h]

theorem Reads.enclosed {closing : Reader Unit} (hr : Reads r x a y) (hc : Reads closing y () z) :
    Reads (enclosed r closing) x a z := by
  intro line column
  obtain ⟨line₁, column₁, h₁⟩ := hr line column
  obtain ⟨line₂, column₂, h₂⟩ := hc line₁ column₁
  refine ⟨line₂, column₂, ?_⟩
  simp only [Json.enclosed, h₁, h₂]

/-- The next byte, once blanks are passed. -/
theorem reads_firstByte (h : IsToken byte) (rest : List UInt8) :
    Reads Decoder.firstByte (byte :: rest) byte (byte :: rest) :=
  (reads_blanks h rest).bind ((reads_peek _).bind (reads_pure _ _))

theorem reads_word (bytes rest : List UInt8) : Reads (word bytes) (bytes ++ rest) () rest := by
  induction bytes with
  | nil => exact reads_pure _ _
  | cons byte bytes ih =>
    refine (reads_peek _).bind ((reads_forward _ _).bind ?_)
    show Reads (if byte = byte then _ else _) _ _ _
    rw [if_pos rfl]
    exact ih

end Readers

/-! ## What goes on behind -/

/-- From `before` on the reader does what the other one does from `after` on. -/
def Leads (r : Reader α) (before : List UInt8) (r' : Reader α) (after : List UInt8) : Prop :=
  ∀ line column, ∃ line' column', r ⟨before, line, column⟩ = r' ⟨after, line', column'⟩

section Leads

variable {r r' r'' : Reader α} {f : α → Reader β} {a : α} {x y z : List UInt8}

theorem Leads.refl (r : Reader α) (x : List UInt8) : Leads r x r x :=
  fun line column => ⟨line, column, rfl⟩

theorem Leads.trans (h : Leads r x r' y) (h' : Leads r' y r'' z) : Leads r x r'' z := by
  intro line column
  obtain ⟨line₁, column₁, h₁⟩ := h line column
  obtain ⟨line₂, column₂, h₂⟩ := h' line₁ column₁
  exact ⟨line₂, column₂, h₁.trans h₂⟩

theorem Leads.reads (h : Leads r x r' y) (hr : Reads r' y a z) : Reads r x a z := by
  intro line column
  obtain ⟨line₁, column₁, h₁⟩ := h line column
  obtain ⟨line₂, column₂, h₂⟩ := hr line₁ column₁
  exact ⟨line₂, column₂, h₁.trans h₂⟩

/-- Behind what the first of two readers takes the second one goes on. -/
theorem Reads.leads (hr : Reads r x a y) : Leads (r >>= f) x (f a) y := by
  intro line column
  obtain ⟨line₁, column₁, h₁⟩ := hr line column
  refine ⟨line₁, column₁, ?_⟩
  show Reader.bind r f _ = _
  rw [Reader.bind, h₁]

end Leads

/-! ## Strings -/

/-- The bytes of characters. -/
def bytesOf (cs : List Char) : List UInt8 := cs.flatMap String.utf8EncodeChar

@[simp] theorem bytesOf_nil : bytesOf [] = [] := rfl

@[simp] theorem bytesOf_cons (c : Char) (cs : List Char) :
    bytesOf (c :: cs) = String.utf8EncodeChar c ++ bytesOf cs := rfl

@[simp] theorem bytesOf_append (cs ds : List Char) :
    bytesOf (cs ++ ds) = bytesOf cs ++ bytesOf ds := List.flatMap_append

/-- The bytes of a string are those of its characters. -/
theorem encode_ofList (cs : List Char) : Utf8.encode (String.ofList cs) = bytesOf cs := by
  rw [Utf8.encode_eq, String.toList_ofList, bytesOf]

/-- The bytes of a string spell it. -/
theorem decode?_bytesOf (s : String) : Utf8.decode? (bytesOf s.toList) = some s := by
  rw [← encode_ofList, String.ofList_toList, Utf8.decode?_encode]

/-- The reading of a string takes a byte as it is. -/
def IsPlain (byte : UInt8) : Prop := byte ≠ 34 ∧ byte ≠ 92 ∧ ¬byte < 32

theorem isPlain_of_mem {c : Char} (hquote : c ≠ '"') (hslash : c ≠ '\\') (hlow : ¬c.toNat < 0x20)
    {byte : UInt8} (hbyte : byte ∈ String.utf8EncodeChar c) : IsPlain byte := by
  have hsmall {n : Nat} (hn : n < 256) : (UInt8.ofNat n).toNat = n := by
    rw [UInt8.toNat_ofNat']
    exact Nat.mod_eq_of_lt hn
  have hhigh {b : UInt8} (hb : 128 ≤ b.toNat) : IsPlain b := by
    refine ⟨?_, ?_, ?_⟩
    · rintro rfl
      exact absurd hb (by decide)
    · rintro rfl
      exact absurd hb (by decide)
    · intro hlt
      have hlt : b.toNat < 32 := UInt8.lt_iff_toNat_lt.1 hlt
      omega
  have hnat : c.val.toNat = c.toNat := rfl
  unfold String.utf8EncodeChar at hbyte
  rw [hnat] at hbyte
  dsimp only at hbyte
  split at hbyte
  · next hone =>
    obtain rfl := List.mem_singleton.1 hbyte
    have hback : c = Char.ofNat c.toNat := (Char.ofNat_toNat c).symm
    refine ⟨?_, ?_, ?_⟩
    · intro h
      have h : c.toNat = 34 := (hsmall (by omega)).symm.trans (congrArg UInt8.toNat h)
      exact hquote (by rw [hback, h])
    · intro h
      have h : c.toNat = 92 := (hsmall (by omega)).symm.trans (congrArg UInt8.toNat h)
      exact hslash (by rw [hback, h])
    · intro h
      have h : (UInt8.ofNat c.toNat).toNat < 32 := UInt8.lt_iff_toNat_lt.1 h
      rw [hsmall (by omega)] at h
      exact hlow h
  · split at hbyte
    · simp only [List.mem_cons, List.not_mem_nil, or_false] at hbyte
      rcases hbyte with rfl | rfl <;> exact hhigh (by rw [hsmall] <;> omega)
    · split at hbyte
      · simp only [List.mem_cons, List.not_mem_nil, or_false] at hbyte
        rcases hbyte with rfl | rfl | rfl <;> exact hhigh (by rw [hsmall] <;> omega)
      · simp only [List.mem_cons, List.not_mem_nil, or_false] at hbyte
        rcases hbyte with rfl | rfl | rfl | rfl <;> exact hhigh (by rw [hsmall] <;> omega)

section Strings

variable {done bytes rest after : List UInt8} {result : List UInt8} {rounds : Nat}

/-- Plain bytes are taken one a round. -/
theorem reads_plain (hplain : ∀ byte ∈ bytes, IsPlain byte)
    (hrest : Reads (stringBytes rounds (bytes.reverse ++ done)) rest result after) :
    Reads (stringBytes (rounds + bytes.length) done) (bytes ++ rest) result after := by
  induction bytes generalizing done with
  | nil => exact hrest
  | cons byte bytes ih =>
    intro line column
    obtain ⟨hquote, hslash, hlow⟩ := hplain byte List.mem_cons_self
    obtain ⟨line₁, column₁, hforward⟩ := forward_cons byte (bytes ++ rest) line column
    have hmore : Reads (stringBytes (rounds + bytes.length) (byte :: done)) (bytes ++ rest) result
        after := by
      refine ih (fun b hb => hplain b (List.mem_cons_of_mem _ hb)) ?_
      rw [List.reverse_cons, List.append_assoc, List.singleton_append] at hrest
      exact hrest
    obtain ⟨line₂, column₂, h⟩ := hmore line₁ column₁
    refine ⟨line₂, column₂, ?_⟩
    show stringBytes (rounds + bytes.length + 1) done ⟨byte :: (bytes ++ rest), line, column⟩ = _
    simp only [stringBytes, if_neg hquote, if_neg hslash, if_neg hlow, hforward, h]

/-- An escape takes a round, and what it stands for is added. -/
theorem reads_escape {code : List UInt8} (hcode : Reads escaped (code ++ rest) bytes rest)
    (hrest : Reads (stringBytes rounds (bytes.reverse ++ done)) rest result after) :
    Reads (stringBytes (rounds + 1) done) (92 :: code ++ rest) result after := by
  intro line column
  obtain ⟨line₁, column₁, hforward⟩ := forward_cons 92 (code ++ rest) line column
  obtain ⟨line₂, column₂, hescaped⟩ := hcode line₁ column₁
  obtain ⟨line₃, column₃, h⟩ := hrest line₂ column₂
  refine ⟨line₃, column₃, ?_⟩
  show stringBytes (rounds + 1) done ⟨92 :: (code ++ rest), line, column⟩ = _
  simp only [stringBytes, hforward, hescaped, h]
  rfl

/-- A letter after the backslash. -/
theorem reads_escaped_letter {letter byte : UInt8} (h : escapeLetter? letter = some byte)
    (rest : List UInt8) : Reads escaped (letter :: rest) [byte] rest := by
  refine (reads_peek _).bind ((reads_forward _ _).bind ?_)
  simp only [h]
  exact reads_pure _ _

/-- The bytes of a hexadecimal digit, and its value. -/
theorem hexValue?_digit {n : Nat} (h : n < 16) :
    ∃ byte, String.utf8EncodeChar (Hex.digit n) = [byte] ∧ hexValue? byte = some n := by
  have hall : ∀ k : Fin 16, String.utf8EncodeChar (Hex.digit k) =
      [UInt8.ofNat (Hex.digit k).toNat] ∧
      hexValue? (UInt8.ofNat (Hex.digit k).toNat) = some k.val := by decide
  exact ⟨_, hall ⟨n, h⟩⟩

theorem forwardBy_four (a b c d : UInt8) (rest : List UInt8) (line column : Nat) :
    ∃ line' column', Cursor.forwardBy 4 ⟨a :: b :: c :: d :: rest, line, column⟩ =
      ⟨rest, line', column'⟩ := by
  obtain ⟨line₁, column₁, h₁⟩ := forward_cons a (b :: c :: d :: rest) line column
  obtain ⟨line₂, column₂, h₂⟩ := forward_cons b (c :: d :: rest) line₁ column₁
  obtain ⟨line₃, column₃, h₃⟩ := forward_cons c (d :: rest) line₂ column₂
  obtain ⟨line₄, column₄, h₄⟩ := forward_cons d rest line₃ column₃
  exact ⟨line₄, column₄, by simp only [Cursor.forwardBy, h₁, h₂, h₃, h₄]⟩

/-- A control character is written with the number of its two digits. -/
theorem reads_escaped_control {n : Nat} (hn : n < 32) (rest : List UInt8) :
    Reads escaped (bytesOf ['u', '0', '0', Hex.digit (n / 16), Hex.digit (n % 16)] ++ rest)
      (String.utf8EncodeChar (Char.ofNat n)) rest := by
  obtain ⟨high, hhigh, hvalue₁⟩ := hexValue?_digit (show n / 16 < 16 by omega)
  obtain ⟨low, hlow, hvalue₂⟩ := hexValue?_digit (show n % 16 < 16 by omega)
  have hbytes : bytesOf ['u', '0', '0', Hex.digit (n / 16), Hex.digit (n % 16)] ++ rest =
      117 :: 48 :: 48 :: high :: low :: rest := by
    simp only [bytesOf_cons, hhigh, hlow, bytesOf_nil]
    rfl
  have hdigits : Reads fourDigits (48 :: 48 :: high :: low :: rest) n rest := by
    intro line column
    obtain ⟨line', column', h⟩ := forwardBy_four 48 48 high low rest line column
    have hzero : hexValue? 48 = some 0 := by decide
    have hsum : ((0 * 16 + 0) * 16 + n / 16) * 16 + n % 16 = n := by omega
    refine ⟨line', column', ?_⟩
    simp only [fourDigits, hzero, hvalue₁, hvalue₂, h, hsum]
  rw [hbytes]
  refine (reads_peek _).bind ((reads_forward _ _).bind ?_)
  refine Reads.map (hdigits.bind ?_)
  rw [if_neg (by omega), if_neg (by omega)]
  exact reads_pure _ _

/-- A character is read from what is printed for it, in no more rounds than that has bytes. -/
theorem reads_char (c : Char) (done rest : List UInt8) :
    ∃ spent ≤ (bytesOf (escape c)).length, ∀ {rounds result after},
      Reads (stringBytes rounds ((String.utf8EncodeChar c).reverse ++ done)) rest result after →
      Reads (stringBytes (rounds + spent) done) (bytesOf (escape c) ++ rest) result after := by
  have hletter {letter : Char} {code byte : UInt8} (hcode : String.utf8EncodeChar letter = [code])
      (hbyte : String.utf8EncodeChar c = [byte]) (hvalue : escapeLetter? code = some byte) :
      ∃ spent ≤ (bytesOf ['\\', letter]).length, ∀ {rounds result after},
        Reads (stringBytes rounds ((String.utf8EncodeChar c).reverse ++ done)) rest result after →
        Reads (stringBytes (rounds + spent) done) (bytesOf ['\\', letter] ++ rest) result
          after := by
    have hbytes : bytesOf ['\\', letter] = [92, code] := by
      simp only [bytesOf_cons, hcode, bytesOf_nil]
      rfl
    have hcode : Reads escaped ([code] ++ rest) [byte] rest := reads_escaped_letter hvalue rest
    rw [hbyte, hbytes]
    exact ⟨1, Nat.le_add_left 1 1, reads_escape hcode⟩
  unfold escape
  -- the seven characters with a letter of their own
  iterate 7
    split
    · next h =>
      subst h
      exact hletter rfl rfl rfl
  split
  · next hlow =>
    have hcode := reads_escaped_control hlow rest
    rw [Char.ofNat_toNat] at hcode
    have hlength (cs : List Char) : 1 ≤ (bytesOf ('\\' :: cs)).length := by
      rw [bytesOf_cons]
      exact Nat.succ_le_succ (Nat.zero_le _)
    exact ⟨1, hlength _, reads_escape hcode⟩
  · next hquote hslash _ _ _ _ _ hlow =>
    have hbytes : bytesOf [c] = String.utf8EncodeChar c := by simp
    rw [hbytes]
    exact ⟨_, Nat.le_refl _,
      reads_plain fun byte hbyte => isPlain_of_mem hquote hslash hlow hbyte⟩

end Strings

/-- The bytes of a string are read from what is printed for its characters, up to the quote. -/
theorem reads_stringBytes (cs : List Char) (done rest : List UInt8) {rounds : Nat}
    (hrounds : (bytesOf (cs.flatMap escape)).length < rounds) :
    Reads (stringBytes rounds done) (bytesOf (cs.flatMap escape) ++ 34 :: rest)
      (done.reverse ++ bytesOf cs) rest := by
  induction cs generalizing done rounds with
  | nil =>
    obtain ⟨rounds, rfl⟩ := Nat.exists_eq_succ_of_ne_zero (Nat.ne_of_gt hrounds)
    intro line column
    obtain ⟨line', column', h⟩ := forward_cons 34 rest line column
    refine ⟨line', column', ?_⟩
    show stringBytes (rounds + 1) done ⟨34 :: rest, line, column⟩ = _
    simp [stringBytes, h]
  | cons c cs ih =>
    rw [List.flatMap_cons, bytesOf_append, List.length_append] at hrounds
    rw [List.flatMap_cons, bytesOf_append, List.append_assoc]
    obtain ⟨spent, hspent, hchar⟩ := reads_char c done (bytesOf (cs.flatMap escape) ++ 34 :: rest)
    obtain ⟨left, rfl⟩ := Nat.exists_eq_add_of_le' (show spent ≤ rounds by omega)
    have hmore := ih ((String.utf8EncodeChar c).reverse ++ done) (show _ < left by omega)
    rw [List.reverse_append, List.reverse_reverse, List.append_assoc] at hmore
    exact hchar hmore

/-- A string is read from its printed form, after the opening quote. -/
theorem reads_stringRest (s : String) (rest : List UInt8) :
    Reads stringRest (bytesOf (s.toList.flatMap escape) ++ 34 :: rest) s rest := by
  refine (reads_remaining _).bind ?_
  refine (reads_stringBytes s.toList [] rest ?_).bind ?_
  · rw [List.length_append]
    omega
  · rw [List.reverse_nil, List.nil_append, decode?_bytesOf]
    exact reads_pure _ _

/-! ## Values of one kind -/

section Values

variable {rest : List UInt8}

theorem bytesOf_quoteL (s : String) :
    bytesOf (quoteL s) = 34 :: (bytesOf (s.toList.flatMap escape) ++ [34]) := by
  rw [quoteL, List.cons_append, bytesOf_cons, bytesOf_append]
  rfl

/-- A string of a form that is known. -/
theorem reads_formatted {expected : String} {parse : String → Except String α} {s : String} {a : α}
    (hparse : parse s = .ok a) (depth : Nat) (rest : List UInt8) :
    Reads (Decoder.formatted expected parse depth) (bytesOf (quoteL s) ++ rest) a rest := by
  rw [bytesOf_quoteL, List.cons_append, List.append_assoc]
  refine Reads.settled ((reads_firstByte (by decide) _).bind ?_)
  refine (reads_forward _ _).bind ((reads_stringRest s rest).bind ?_)
  rw [hparse]
  exact reads_pure _ _

theorem reads_text (s : String) (depth : Nat) (rest : List UInt8) :
    Reads (Decoder.text depth) (bytesOf (textL (.str s)) ++ rest) s rest :=
  reads_formatted rfl depth rest

theorem reads_flag (b : Bool) (depth : Nat) (rest : List UInt8) :
    Reads (Decoder.flag depth) (bytesOf (textL (.bool b)) ++ rest) b rest := by
  cases b with
  | true =>
    refine Reads.settled ((reads_firstByte (show IsToken 116 by decide) _).bind ?_)
    exact (reads_forward _ _).bind ((reads_word [114, 117, 101] rest).bind (reads_pure _ _))
  | false =>
    refine Reads.settled ((reads_firstByte (show IsToken 102 by decide) _).bind ?_)
    exact (reads_forward _ _).bind ((reads_word [97, 108, 115, 101] rest).bind (reads_pure _ _))

theorem reads_anyValue_bool (b : Bool) (depth : Nat) (rest : List UInt8) :
    Reads (anyValue depth) (bytesOf (textL (.bool b)) ++ rest) (.bool b) rest := by
  unfold anyValue
  cases b with
  | true =>
    refine (reads_blanks (show IsToken 116 by decide) _).bind ((reads_peek _).bind ?_)
    exact (reads_forward _ _).bind ((reads_word [114, 117, 101] rest).bind (reads_pure _ _))
  | false =>
    refine (reads_blanks (show IsToken 102 by decide) _).bind ((reads_peek _).bind ?_)
    exact (reads_forward _ _).bind ((reads_word [97, 108, 115, 101] rest).bind (reads_pure _ _))

theorem reads_nullable_null (shape : Decoder α) (depth : Nat) (rest : List UInt8) :
    Reads (Decoder.nullable shape depth) (bytesOf (textL .null) ++ rest) none rest := by
  refine (reads_blanks (show IsToken 110 by decide) _).bind ((reads_peek _).bind ?_)
  exact (reads_forward _ _).bind ((reads_word [117, 108, 108] rest).bind (reads_pure _ _))

/-- A value that does not begin like `null`. -/
theorem reads_nullable_some {shape : Decoder α} {depth : Nat} {a : α} {byte : UInt8}
    {before : List UInt8} (htoken : IsToken byte) (hnull : byte ≠ 110)
    (hshape : Reads (shape depth) (byte :: before) a rest) :
    Reads (Decoder.nullable shape depth) (byte :: before) (some a) rest := by
  refine (reads_blanks htoken _).bind ((reads_peek _).bind ?_)
  have hother : ¬some byte = some 110 := fun h => hnull (Option.some.inj h)
  show Reads (if some byte = some 110 then _ else _) _ _ _
  rw [if_neg hother]
  exact hshape.map

end Values

/-! ## Parts behind commas -/

section Parts

/-- A part, behind a comma unless it comes first. -/
def commaL (first : Bool) (part : List Char) : List Char := if first then part else ',' :: part

/-- Parts with commas between them, and before them unless they come first. -/
def partsL : Bool → List (List Char) → List Char
  | _, [] => []
  | first, part :: parts => commaL first part ++ partsL false parts

theorem partsL_append (first : Bool) (parts more : List (List Char)) :
    partsL first (parts ++ more) = partsL first parts ++ partsL (first && parts.isEmpty) more := by
  induction parts generalizing first with
  | nil => simp [partsL]
  | cons part parts ih => simp [partsL, ih]

/-- What may stand behind a value: a comma before another one, or the end of what the value is in.
Numbers are only over there. -/
def EndsValue : List UInt8 → Prop
  | [] => True
  | byte :: _ => byte = 44 ∨ byte = 93 ∨ byte = 125

theorem endsValue_comma (rest : List UInt8) : EndsValue (44 :: rest) := .inl rfl

theorem endsValue_bracket (rest : List UInt8) : EndsValue (93 :: rest) := .inr (.inl rfl)

theorem endsValue_brace (rest : List UInt8) : EndsValue (125 :: rest) := .inr (.inr rfl)

/-- Where more parts follow, or what follows the parts, a value is over. -/
theorem endsValue_partsL {rest : List UInt8} (parts : List (List Char)) (hrest : EndsValue rest) :
    EndsValue (bytesOf (partsL false parts) ++ rest) := by
  cases parts with
  | nil => exact hrest
  | cons part parts => exact endsValue_comma _

theorem length_le_bytesOf (cs : List Char) : cs.length ≤ (bytesOf cs).length := by
  induction cs with
  | nil => exact Nat.le_refl 0
  | cons c cs ih =>
    have hpos : 0 < (String.utf8EncodeChar c).length := by
      rw [String.length_utf8EncodeChar]
      exact c.utf8Size_pos
    rw [bytesOf_cons, List.length_append, List.length_cons]
    omega

/-- Each part takes at least a byte. -/
theorem length_le_partsL (first : Bool) {parts : List (List Char)}
    (hparts : ∀ part ∈ parts, part ≠ []) :
    parts.length ≤ (bytesOf (partsL first parts)).length := by
  refine Nat.le_trans ?_ (length_le_bytesOf _)
  induction parts generalizing first with
  | nil => exact Nat.le_refl 0
  | cons part parts ih =>
    have hpart : 0 < (commaL first part).length := by
      cases first with
      | true => exact List.length_pos_iff.2 (hparts part List.mem_cons_self)
      | false => exact Nat.succ_pos _
    have hmore := ih false fun part hmem => hparts part (List.mem_cons_of_mem _ hmem)
    rw [partsL, List.length_append, List.length_cons]
    omega

end Parts

/-! ## Objects -/

section Objects

variable {value : String → σ → Reader σ} {ms : Members} {s s' : σ} {rest : List UInt8}

theorem reads_colon (rest : List UInt8) : Reads colon (58 :: rest) () rest :=
  (reads_blanks (by decide) _).bind ((reads_peek _).bind (reads_forward _ _))

theorem reads_closeObject (rest : List UInt8) : Reads closeObject (125 :: rest) () rest :=
  (reads_blanks (by decide) _).bind ((reads_peek _).bind (reads_forward _ _))

theorem reads_nextName_none (first : Bool) (rest : List UInt8) :
    Reads (nextName first) (125 :: rest) none (125 :: rest) :=
  (reads_blanks (by decide) _).bind ((reads_peek _).bind (reads_pure _ _))

theorem reads_nextName_first (name : String) (rest : List UInt8) :
    Reads (nextName true) (bytesOf (quoteL name) ++ rest) (some name) rest := by
  rw [bytesOf_quoteL, List.cons_append, List.append_assoc]
  refine (reads_blanks (show IsToken 34 by decide) _).bind ((reads_peek _).bind ?_)
  exact (reads_forward _ _).bind (reads_stringRest name rest).map

theorem reads_nextName_more (name : String) (rest : List UInt8) :
    Reads (nextName false) (44 :: bytesOf (quoteL name) ++ rest) (some name) rest := by
  rw [bytesOf_quoteL, List.cons_append, List.cons_append, List.append_assoc]
  refine (reads_blanks (show IsToken 44 by decide) _).bind ((reads_peek _).bind ?_)
  refine (reads_forward _ _).bind ((reads_blanks (show IsToken 34 by decide) _).bind ?_)
  refine (reads_peek _).bind ((reads_forward _ _).bind ?_)
  exact (reads_stringRest name rest).map

/-- The name of a member, behind its comma unless it comes first. -/
theorem reads_nextName (first : Bool) (name : String) (rest : List UInt8) :
    Reads (nextName first) (bytesOf (commaL first (quoteL name)) ++ rest) (some name) rest := by
  cases first with
  | true => exact reads_nextName_first name rest
  | false => exact reads_nextName_more name rest

/-- Reading the values of members one after the other makes the state `s'` of `s`. -/
inductive Fills (value : String → σ → Reader σ) : Members → σ → σ → Prop
  | nil (s : σ) : Fills value [] s s
  | cons {name : String} {v : Json} {ms : Members} {s s₁ s₂ : σ}
      (head : ∀ rest, EndsValue rest →
        Reads (value name s) (58 :: bytesOf (textL v) ++ rest) s₁ rest)
      (tail : Fills value ms s₁ s₂) : Fills value ((name, v) :: ms) s s₂

theorem Fills.append {ms' : Members} {s'' : σ} (h : Fills value ms s s')
    (h' : Fills value ms' s' s'') : Fills value (ms ++ ms') s s'' := by
  induction h with
  | nil => exact h'
  | cons head _ ih => exact .cons head (ih h')

/-- A member as it is written. -/
def memberL (m : String × Json) : List Char := quoteL m.1 ++ ':' :: textL m.2

theorem membersL_eq (ms : Members) : membersL ms = partsL true (ms.map memberL) := by
  induction ms with
  | nil => rfl
  | cons m ms ih =>
    obtain ⟨name, v⟩ := m
    cases ms with
    | nil => simp [membersL, partsL, commaL, memberL]
    | cons m' ms =>
      rw [membersL, ih]
      simp [partsL, commaL, memberL]

/-- The bytes of a member, and of what follows it. -/
theorem bytesOf_member (first : Bool) (name : String) (v : Json) (parts : List (List Char))
    (rest : List UInt8) :
    bytesOf (partsL first (memberL (name, v) :: parts)) ++ rest =
      bytesOf (commaL first (quoteL name)) ++ (58 :: bytesOf (textL v) ++
        (bytesOf (partsL false parts) ++ rest)) := by
  have hcolon : String.utf8EncodeChar ':' = [58] := rfl
  cases first <;> simp [partsL, commaL, memberL, hcolon]

/-- Members are read one after the other, up to what follows them. -/
theorem leads_membersOnto (hfills : Fills value ms s s') (first : Bool)
    (hrest : ms = [] ∨ EndsValue rest) (rounds : Nat) :
    Leads (membersOnto value (rounds + ms.length) first s)
      (bytesOf (partsL first (ms.map memberL)) ++ rest)
      (membersOnto value rounds (first && ms.isEmpty) s') rest := by
  induction hfills generalizing first with
  | nil s =>
    rw [List.isEmpty_nil, Bool.and_true]
    exact Leads.refl _ _
  | @cons name v ms s s₁ s₂ head tail ih =>
    have hover := hrest.resolve_left (List.cons_ne_nil _ _)
    rw [List.map_cons, bytesOf_member, List.isEmpty_cons, Bool.and_false]
    refine ((Reads.within _ (reads_nextName first name _)).leads).trans ?_
    exact (head _ (endsValue_partsL _ hover)).leads.trans (ih false (.inr hover))

/-- The members of an object are read one after the other. -/
theorem reads_membersOnto (hfills : Fills value ms s s') (rest : List UInt8) {rounds : Nat}
    (hrounds : ms.length < rounds) :
    Reads (membersOnto value rounds true s) (bytesOf (membersL ms) ++ 125 :: rest) s'
      (125 :: rest) := by
  obtain ⟨left, rfl⟩ : ∃ left, rounds = left + 1 + ms.length := ⟨rounds - 1 - ms.length, by omega⟩
  rw [membersL_eq]
  refine (leads_membersOnto hfills true (.inr (endsValue_brace rest)) (left + 1)).reads ?_
  exact (Reads.within _ (reads_nextName_none _ rest)).bind (reads_pure _ _)

/-- The text of an object is longer than the number of its members. -/
theorem length_membersL (ms : Members) (rest : List UInt8) :
    ms.length < (bytesOf (membersL ms) ++ 125 :: rest).length := by
  have hparts : (ms.map memberL).length ≤ (bytesOf (membersL ms)).length := by
    rw [membersL_eq]
    refine length_le_partsL true fun part hpart => ?_
    obtain ⟨m, -, rfl⟩ := List.mem_map.1 hpart
    exact List.cons_ne_nil _ _
  rw [List.length_map] at hparts
  rw [List.length_append, List.length_cons]
  omega

theorem bytesOf_object (ms : Members) (rest : List UInt8) :
    bytesOf (textL (.obj ms)) ++ rest = 123 :: (bytesOf (membersL ms) ++ 125 :: rest) := by
  simp only [textL, List.cons_append, bytesOf_cons, bytesOf_append, List.append_assoc]
  rfl

/-- What an object with any members does with one of them. -/
def putMember (depth : Nat) (name : String) (members : Members) : Reader Members :=
  within (.member name) do
    colon
    let v ← anyValue depth
    pure (Members.insert name v members)

/-- An object with any members. -/
theorem reads_members {depth : Nat} {claims : Members}
    (hfills : Fills (putMember depth) ms [] claims) (rest : List UInt8) :
    Reads (Decoder.members (depth + 1)) (bytesOf (textL (.obj ms)) ++ rest) claims rest := by
  rw [bytesOf_object]
  refine Reads.settled ((reads_firstByte (show IsToken 123 by decide) _).bind ?_)
  refine (reads_forward _ _).bind ((reads_remaining _).bind ?_)
  refine Reads.enclosed ?_ (reads_closeObject rest)
  exact reads_membersOnto hfills rest (Nat.lt_succ_of_lt (length_membersL ms rest))

/-! ## Records -/

/-- A member of a record is put into its field, if that is still empty. -/
theorem reads_recordMember {fields : List (Decoder.Field σ)} {depth : Nat} {name : String}
    {field : Decoder.Field σ} {put : σ → σ} {v : Json}
    (hname : Decoder.Field.named? name fields = some field) (hgiven : field.given s = false)
    (hread : Reads (field.read depth) (bytesOf (textL v) ++ rest) put rest) :
    Reads (Decoder.recordMember fields depth name s) (58 :: bytesOf (textL v) ++ rest) (put s)
      rest := by
  simp only [Decoder.recordMember, hname, hgiven]
  exact Reads.within _ ((reads_colon _).bind (hread.bind (reads_pure _ _)))

/-- A member whose field has a place of its own fills that place. -/
theorem Fills.slot {fields : List (Decoder.Field σ)} {depth : Nat} {name : String}
    {shape : Decoder α} {put : Option α → σ → σ} {get : σ → Option α} {required mayBeCut : Bool}
    {v : Json} {a : α}
    (hname : Decoder.Field.named? name fields = some (.slot name shape put get required mayBeCut))
    (hgiven : (get s).isSome = false)
    (hshape : ∀ rest, EndsValue rest → Reads (shape depth) (bytesOf (textL v) ++ rest) a rest)
    (tail : Fills (Decoder.recordMember fields depth) ms (put (some a) s) s') :
    Fills (Decoder.recordMember fields depth) ((name, v) :: ms) s s' :=
  .cons (fun rest hrest =>
      reads_recordMember hname hgiven ((hshape rest hrest).bind (reads_pure _ _))) tail

theorem reads_requireAll {fields : List (Decoder.Field σ)}
    (hall : ∀ field ∈ fields, field.required = true → field.given s = true) (x : List UInt8) :
    Reads (Decoder.requireAll fields s) x s x := by
  induction fields with
  | nil => exact reads_pure _ _
  | cons field fields ih =>
    have hgiven := hall field List.mem_cons_self
    have hpassed : ¬(field.required && !field.given s) = true := by
      simpa using hgiven
    rw [Decoder.requireAll, if_neg hpassed]
    exact ih fun field hmem => hall field (List.mem_cons_of_mem _ hmem)

/-- A record is read from an object whose members fill the fields that are required. -/
theorem reads_record {name : String} {fields : List (Decoder.Field σ)} {blank : σ} {finish : σ → α}
    {depth : Nat} (hfills : Fills (Decoder.recordMember fields depth) ms blank s)
    (hall : ∀ field ∈ fields, field.required = true → field.given s = true) (rest : List UInt8) :
    Reads (Decoder.record name fields blank finish (depth + 1)) (bytesOf (textL (.obj ms)) ++ rest)
      (finish s) rest := by
  rw [bytesOf_object]
  refine Reads.settled ((reads_firstByte (show IsToken 123 by decide) _).bind ?_)
  refine (reads_forward _ _).bind ((reads_remaining _).bind (Reads.bind ?_ (reads_pure _ _)))
  refine Reads.enclosed (Reads.bind ?_ (reads_requireAll hall _)) (reads_closeObject rest)
  exact reads_membersOnto hfills rest (Nat.lt_succ_of_lt (length_membersL ms rest))

end Objects

/-! ## Whole texts -/

theorem reads_endOfText : Reads endOfText [] () [] :=
  reads_blanks_nil.bind ((reads_peek []).bind (reads_pure _ _))

/-- A value that is read from all of its printed text. -/
theorem runText_of_reads {shape : Decoder α} {v : Json} {a : α}
    (h : Reads (shape maxDepth) (bytesOf (textL v)) a []) : shape.runText v.text = .ok a := by
  obtain ⟨line, column, hshape⟩ := h 1 0
  obtain ⟨line', column', hend⟩ := reads_endOfText line column
  rw [Decoder.runText, Decoder.run, Json.text, encode_ofList, Cursor.start, hshape]
  simp only [hend]

end Intranet.Json
