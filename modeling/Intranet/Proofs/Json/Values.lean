import Intranet.Proofs.Digits
import Intranet.Proofs.Json.Members
import Intranet.Proofs.Json.Nesting
import Intranet.Proofs.Json.Reading

/-!
# Any value is read back

A value whose numbers are whole is read from its printed text, however many lists and objects it
has, as long as no more of them are open at once than the reader allows.

* `IsWhole` — values that are printed without loss;
* `reads_int` — numbers, which are only over when something else follows;
* `reads_itemsOnto` — the items of a list, one after the other;
* `fills_putMember` — the members of an object, put in one behind the other;
* `reads_anyValue`, `reads_object` — any value, and an object that is wanted as one.
-/

namespace Intranet.Json

/-- A value whose text says all that it is: its numbers are whole and within the bounds of numbers,
and the members of its objects are in order. -/
inductive IsWhole : Json → Prop
  | null : IsWhole .null
  | bool (b : Bool) : IsWhole (.bool b)
  | int {n : Int} : -(Nat.pow 2 63 : Nat) ≤ n → n < (Nat.pow 2 64 : Nat) → IsWhole (.int n)
  | str (s : String) : IsWhole (.str s)
  | arr {items : List Json} : (∀ v ∈ items, IsWhole v) → IsWhole (.arr items)
  | obj {members : Members} :
      members.Pairwise (fun a b => a.1 < b.1) → (∀ m ∈ members, IsWhole m.2) →
      IsWhole (.obj members)

/-- Such a value may be put among the members of such an object. -/
theorem IsWhole.insert {v : Json} {members : Members} (hv : v.IsWhole)
    (h : (Json.obj members).IsWhole) (key : String) :
    (Json.obj (members.insert key v)).IsWhole := by
  cases h with
  | obj hordered hwhole =>
    refine .obj (Members.ordered_insert hordered) fun m hm => ?_
    rcases Members.mem_of_mem_insert hm with rfl | hm
    · exact hv
    · exact hwhole m hm

section Numbers

variable {rest : List UInt8}

/-- A decimal digit is one byte of the same value. -/
theorem digit_byte {c : Char} (h : Decimal.isDigit c = true) :
    ∃ byte, String.utf8EncodeChar c = [byte] ∧ byte.toNat = c.toNat ∧
      decimal? byte = some (Decimal.digitValue c) := by
  have hbounds : 48 ≤ c.toNat ∧ c.toNat ≤ 57 := by
    simpa [Decimal.isDigit, Char.le_def, UInt32.le_iff_toNat_le] using h
  have hbyte : (UInt8.ofNat c.toNat).toNat = c.toNat := by
    rw [UInt8.toNat_ofNat']
    exact Nat.mod_eq_of_lt (by omega)
  refine ⟨UInt8.ofNat c.toNat, ?_, hbyte, ?_⟩
  · have hnat : c.val.toNat = c.toNat := rfl
    have hsmall : c.toNat ≤ 127 := by omega
    simp [String.utf8EncodeChar, hnat, hsmall]
  · simp [decimal?, UInt8.le_iff_toNat_le, hbyte, hbounds, Decimal.digitValue]

/-- The digits of a number that is not zero do not begin with one. -/
theorem exists_toDigits {n : Nat} (hn : 0 < n) :
    ∃ c cs, Nat.toDigits 10 n = c :: cs ∧ c ≠ '0' := by
  induction n using Nat.strongRecOn with
  | ind n ih =>
    by_cases hsmall : n < 10
    · refine ⟨Nat.digitChar n, [], Nat.toDigits_of_lt_base hsmall, ?_⟩
      have hall : ∀ k : Fin 10, 0 < k.val → Nat.digitChar k ≠ '0' := by decide
      exact hall ⟨n, hsmall⟩ hn
    · obtain ⟨c, cs, hcs, hc⟩ := ih (n / 10) (by omega) (by omega)
      exact ⟨c, cs ++ [Nat.digitChar (n % 10)], by
        rw [Nat.toDigits_of_base_le (by decide) (by omega), hcs, List.cons_append], hc⟩

theorem le_natOnto (n : Nat) (cs : List Char) : n ≤ Decimal.natOnto n cs := by
  induction cs generalizing n with
  | nil => exact Nat.le_refl n
  | cons c cs ih => exact Nat.le_trans (by omega) (ih (n * 10 + Decimal.digitValue c))

theorem EndsValue.decimal?_head? (h : EndsValue rest) : rest.head?.bind decimal? = none := by
  cases rest with
  | nil => rfl
  | cons byte rest => rcases h with rfl | rfl | rfl <;> rfl

theorem reads_peekDigit_none (h : EndsValue rest) : Reads peekDigit rest none rest :=
  fun line column => ⟨line, column, congrArg (Outcome.done · _) h.decimal?_head?⟩

/-- Digits are taken up to the end of a number. -/
theorem reads_takeDigits {cs : List Char} {n value count rounds : Nat}
    (hdigits : ∀ c ∈ cs, Decimal.isDigit c = true) (hvalue : Decimal.natOnto n cs = value)
    (hsize : value ≤ maxSignificand) (hrounds : cs.length ≤ rounds) (hrest : EndsValue rest) :
    Reads (takeDigits rounds n count) (bytesOf cs ++ rest) (value, count + cs.length) rest := by
  subst hvalue
  induction cs generalizing n count rounds with
  | nil =>
    intro line column
    refine ⟨line, column, ?_⟩
    cases rounds with
    | zero => rfl
    | succ rounds =>
      have hnone : (⟨rest, line, column⟩ : Cursor).peek?.bind decimal? = none :=
        hrest.decimal?_head?
      show takeDigits (rounds + 1) n count ⟨rest, line, column⟩ = _
      simp only [takeDigits, hnone]
      rfl
  | cons c cs ih =>
    obtain ⟨rounds, rfl⟩ :=
      Nat.exists_eq_succ_of_ne_zero (Nat.ne_of_gt (Nat.zero_lt_of_lt hrounds))
    obtain ⟨byte, hbyte, -, hdecimal⟩ := digit_byte (hdigits c List.mem_cons_self)
    have hfits : n * 10 + Decimal.digitValue c ≤ maxSignificand :=
      Nat.le_trans (le_natOnto _ cs) hsize
    intro line column
    obtain ⟨line₁, column₁, hforward⟩ := forward_cons byte (bytesOf cs ++ rest) line column
    obtain ⟨line₂, column₂, h⟩ := ih (fun d hd => hdigits d (List.mem_cons_of_mem c hd))
      (Nat.le_of_succ_le_succ hrounds) hsize line₁ column₁
    refine ⟨line₂, column₂, ?_⟩
    rw [bytesOf_cons, hbyte, List.singleton_append, List.cons_append, List.length_cons,
      Nat.add_comm cs.length, ← Nat.add_assoc]
    have hsome : (⟨byte :: (bytesOf cs ++ rest), line, column⟩ : Cursor).peek?.bind decimal? =
        some (Decimal.digitValue c) := hdecimal
    simp only [takeDigits, hsome, if_pos hfits, hforward]
    exact h

theorem reads_numberTail (n : Nat) (h : EndsValue rest) :
    Reads (numberTail false n) rest (.int n) rest := by
  refine (reads_peek _).bind ?_
  cases rest with
  | nil => exact reads_pure _ _
  | cons byte rest => rcases h with rfl | rfl | rfl <;> exact reads_pure _ _

theorem reads_numberTail_negative {n : Nat} (hpos : n ≠ 0) (hn : n ≤ Nat.pow 2 63)
    (h : EndsValue rest) : Reads (numberTail true n) rest (.int (-n)) rest := by
  have hwhole : Reads (if n = 0 then pure (.float (.zero true)) else
      if n ≤ Nat.pow 2 63 then pure (.int (-n)) else scaled true n 0) rest (.int (-n)) rest := by
    rw [if_neg hpos, if_pos hn]
    exact reads_pure _ _
  refine (reads_peek _).bind ?_
  cases rest with
  | nil => exact hwhole
  | cons byte rest => rcases h with rfl | rfl | rfl <;> exact hwhole

/-- A number is read from its digits, up to what follows them. -/
theorem reads_number {n : Nat} {negative : Bool} {number : Number} (hn : n ≤ maxSignificand)
    (hrest : EndsValue rest) (htail : Reads (numberTail negative n) rest number rest) :
    Reads (Json.number negative) (bytesOf (Nat.toDigits 10 n) ++ rest) number rest := by
  rcases Nat.eq_zero_or_pos n with rfl | hpos
  · rw [Nat.toDigits_zero]
    refine (reads_peek _).bind ((reads_forward 48 rest).bind ?_)
    exact (reads_peekDigit_none hrest).bind htail
  · obtain ⟨c, cs, hcs, hzero⟩ := exists_toDigits hpos
    have hdigits : ∀ d ∈ c :: cs, Decimal.isDigit d = true := by
      rw [← hcs]
      exact fun d hd => Decimal.isDigit_of_mem_toDigits hd
    have hvalue : Decimal.natOnto 0 (c :: cs) = n := by
      rw [← hcs, Decimal.natOnto_toDigits]
    obtain ⟨byte, hbyte, hnat, hdecimal⟩ := digit_byte (hdigits c List.mem_cons_self)
    have hne : byte ≠ 48 := by
      rintro rfl
      have hback : c = Char.ofNat c.toNat := (Char.ofNat_toNat c).symm
      exact hzero (by rw [hback, ← hnat]; rfl)
    have htake : Decimal.natOnto (Decimal.digitValue c) cs = n := by
      rw [← hvalue, Decimal.natOnto, Decimal.natOnto, List.foldl_cons, Nat.zero_mul, Nat.zero_add]
    have hlength : cs.length ≤ (bytesOf cs ++ rest).length := by
      rw [List.length_append]
      exact Nat.le_trans (length_le_bytesOf cs) (Nat.le_add_right _ _)
    rw [hcs, bytesOf_cons, hbyte, List.singleton_append, List.cons_append]
    refine (reads_peek _).bind ((reads_forward _ _).bind ?_)
    simp only [hne, if_false, hdecimal]
    refine (reads_remaining _).bind ((reads_takeDigits ?_ htake hn hlength hrest).bind ?_)
    · exact fun d hd => hdigits d (List.mem_cons_of_mem c hd)
    · exact (reads_peekDigit_none hrest).bind htail

theorem ne_of_decimal? {byte b : UInt8} {d : Nat} (h : decimal? byte = some d)
    (hb : decimal? b = none) : byte ≠ b := by
  rintro rfl
  rw [hb] at h
  cases h

theorem isToken_of_decimal? {byte : UInt8} {d : Nat} (h : decimal? byte = some d) : IsToken byte :=
  ⟨ne_of_decimal? h rfl, ne_of_decimal? h rfl, ne_of_decimal? h rfl, ne_of_decimal? h rfl⟩

/-- The text of a natural number begins with a digit. -/
theorem exists_decimal? (n : Nat) :
    ∃ byte before d, bytesOf (Nat.toDigits 10 n) = byte :: before ∧ decimal? byte = some d := by
  obtain ⟨c, cs, hcs⟩ := List.exists_cons_of_ne_nil (Nat.toDigits_ne_nil (n := n) (b := 10))
  have hdigit : Decimal.isDigit c = true :=
    Decimal.isDigit_of_mem_toDigits (hcs ▸ List.mem_cons_self)
  obtain ⟨byte, hbyte, -, hdecimal⟩ := digit_byte hdigit
  refine ⟨byte, bytesOf cs, _, ?_, hdecimal⟩
  rw [hcs, bytesOf_cons, hbyte, List.singleton_append]

/-- Where there is a digit a number begins. -/
theorem reads_anyValue_digit {byte : UInt8} {before : List UInt8} {d : Nat} {number : Number}
    (hdecimal : decimal? byte = some d) (depth : Nat)
    (h : Reads (Json.number false) (byte :: before) number rest) :
    Reads (anyValue depth) (byte :: before) number.toJson rest := by
  have hother {b : UInt8} (hb : decimal? b = none) : byte ≠ b := ne_of_decimal? hdecimal hb
  unfold anyValue
  refine (reads_blanks (isToken_of_decimal? hdecimal) _).bind ((reads_peek _).bind ?_)
  simp only [List.head?_cons, hother (b := 110) rfl, hother (b := 116) rfl, hother (b := 102) rfl,
    hother (b := 45) rfl, hdecimal, Option.isSome_some, if_false, if_true]
  exact h.map

/-- A number within bounds is read from its text, up to what follows it. -/
theorem reads_int {n : Int} (hlow : -(Nat.pow 2 63 : Nat) ≤ n) (hhigh : n < (Nat.pow 2 64 : Nat))
    (depth : Nat) (hrest : EndsValue rest) :
    Reads (anyValue depth) (bytesOf (textL (.int n)) ++ rest) (.int n) rest := by
  show Reads (anyValue depth) (bytesOf (intL n) ++ rest) _ _
  have hlimit : Nat.pow 2 64 = maxSignificand + 1 := rfl
  have hhalf : Nat.pow 2 63 ≤ maxSignificand := by decide
  rw [intL]
  split
  · next hneg =>
    have hback : -(n.natAbs : Int) = n := by omega
    have hread :
        Reads (Json.number true) (bytesOf (Nat.toDigits 10 n.natAbs) ++ rest) (.int n) rest := by
      have htail := reads_numberTail_negative (n := n.natAbs) (by omega) (by omega) hrest
      rw [hback] at htail
      exact reads_number (by omega) hrest htail
    unfold anyValue
    refine (reads_blanks (show IsToken 45 by decide) _).bind ((reads_peek _).bind ?_)
    exact (reads_forward _ _).bind hread.map
  · next hpos =>
    obtain ⟨m, rfl⟩ : ∃ m : Nat, n = m := ⟨n.toNat, by omega⟩
    have hread := reads_number (show m ≤ maxSignificand by omega) hrest (reads_numberTail m hrest)
    obtain ⟨byte, before, d, hbytes, hdecimal⟩ := exists_decimal? m
    rw [Int.natAbs_natCast]
    rw [hbytes, List.cons_append] at hread ⊢
    exact reads_anyValue_digit hdecimal depth hread

end Numbers

/-! ## Lists -/

section Lists

variable {rest : List UInt8} {item : Reader Json} {items : List Json} {v : Json}

/-- The text of a value begins with a byte that is no blank and does not end a list, and only that
of null begins like it. -/
theorem IsWhole.exists_byte (hv : v.IsWhole) :
    ∃ byte before, bytesOf (textL v) = byte :: before ∧ IsToken byte ∧ byte ≠ 93 ∧
      (byte = 110 → v = .null) := by
  cases hv with
  | null => exact ⟨110, _, rfl, by decide, by decide, fun _ => rfl⟩
  | bool b =>
    cases b with
    | true => exact ⟨116, _, rfl, by decide, by decide, nofun⟩
    | false => exact ⟨102, _, rfl, by decide, by decide, nofun⟩
  | @int n hlow hhigh =>
    show ∃ byte before, bytesOf (intL n) = byte :: before ∧ _
    rw [intL]
    split
    · exact ⟨45, _, rfl, by decide, by decide, nofun⟩
    · obtain ⟨byte, before, d, hbytes, hdecimal⟩ := exists_decimal? n.natAbs
      exact ⟨byte, before, hbytes, isToken_of_decimal? hdecimal, ne_of_decimal? hdecimal rfl,
        fun hnull => absurd hnull (ne_of_decimal? hdecimal rfl)⟩
  | str s => exact ⟨34, _, bytesOf_quoteL s, by decide, by decide, nofun⟩
  | arr => exact ⟨91, _, rfl, by decide, by decide, nofun⟩
  | obj => exact ⟨123, _, rfl, by decide, by decide, nofun⟩

theorem itemsL_eq (items : List Json) : itemsL items = partsL true (items.map textL) := by
  induction items with
  | nil => rfl
  | cons v items ih =>
    cases items with
    | nil => simp [itemsL, partsL, commaL]
    | cons w items =>
      rw [itemsL, ih]
      simp [partsL, commaL]

theorem reads_moreItems_none (first : Bool) (rest : List UInt8) :
    Reads (moreItems first) (93 :: rest) false (93 :: rest) :=
  (reads_blanks (by decide) _).bind ((reads_peek _).bind (reads_pure _ _))

/-- Where the text of a value is there is one more item, behind its comma unless it comes first. -/
theorem IsWhole.reads_moreItems (hv : v.IsWhole) (first : Bool) (rest : List UInt8) :
    Reads (moreItems first) (bytesOf (commaL first (textL v)) ++ rest) true
      (bytesOf (textL v) ++ rest) := by
  obtain ⟨byte, before, hbytes, htoken, hend, -⟩ := hv.exists_byte
  cases first with
  | true =>
    rw [show commaL true (textL v) = textL v from rfl, hbytes]
    refine (reads_blanks htoken _).bind ((reads_peek _).bind ?_)
    simp only [List.cons_append, List.head?_cons, if_neg hend, if_true]
    exact reads_pure _ _
  | false =>
    rw [show commaL false (textL v) = ',' :: textL v from rfl, bytesOf_cons, hbytes]
    refine (reads_blanks (show IsToken 44 by decide) _).bind ((reads_peek _).bind ?_)
    refine (reads_forward _ _).bind ((reads_blanks htoken _).bind ((reads_peek _).bind ?_))
    simp only [List.cons_append, List.head?_cons]
    exact reads_pure _ _

/-- Items are read one after the other, up to what follows them. -/
theorem leads_itemsOnto (hwhole : ∀ v ∈ items, v.IsWhole)
    (hitems : ∀ v ∈ items, ∀ rest, EndsValue rest → Reads item (bytesOf (textL v) ++ rest) v rest)
    (index : Nat) (done : List Json) (hrest : items = [] ∨ EndsValue rest) (rounds : Nat) :
    Leads (itemsOnto item (rounds + items.length) index done)
      (bytesOf (partsL (index = 0) (items.map textL)) ++ rest)
      (itemsOnto item rounds (index + items.length) (items.reverse ++ done)) rest := by
  induction items generalizing index done with
  | nil => exact Leads.refl _ _
  | cons v items ih =>
    have hbytes : bytesOf (partsL (index = 0) ((v :: items).map textL)) ++ rest =
        bytesOf (commaL (index = 0) (textL v)) ++
          (bytesOf (partsL false (items.map textL)) ++ rest) := by
      simp [partsL]
    have hover := hrest.resolve_left (List.cons_ne_nil _ _)
    have hread := hitems v List.mem_cons_self _ (endsValue_partsL (items.map textL) hover)
    have hnext := (hwhole v List.mem_cons_self).reads_moreItems (index = 0)
      (bytesOf (partsL false (items.map textL)) ++ rest)
    have hlater := ih (fun w hw => hwhole w (List.mem_cons_of_mem v hw))
      (fun w hw => hitems w (List.mem_cons_of_mem v hw)) (index + 1) (v :: done) (.inr hover)
    have hindex : index + 1 + items.length = index + (v :: items).length := by
      rw [List.length_cons]
      omega
    have hitem : Reads (do if ← moreItems (index = 0) then some <$> item else pure none)
        (bytesOf (commaL (index = 0) (textL v)) ++
          (bytesOf (partsL false (items.map textL)) ++ rest))
        (some v) (bytesOf (partsL false (items.map textL)) ++ rest) := hnext.bind hread.map
    rw [hbytes, List.reverse_cons, List.append_assoc, List.singleton_append, ← hindex]
    exact (hitem.within _).leads.trans hlater

/-- The items of a list are read one after the other. -/
theorem reads_itemsOnto (hwhole : ∀ v ∈ items, v.IsWhole)
    (hitems : ∀ v ∈ items, ∀ rest, EndsValue rest → Reads item (bytesOf (textL v) ++ rest) v rest)
    (rest : List UInt8) {rounds : Nat} (hrounds : items.length < rounds) :
    Reads (itemsOnto item rounds 0 []) (bytesOf (itemsL items) ++ 93 :: rest) items
      (93 :: rest) := by
  obtain ⟨left, rfl⟩ : ∃ left, rounds = left + 1 + items.length :=
    ⟨rounds - 1 - items.length, by omega⟩
  rw [itemsL_eq]
  refine (leads_itemsOnto hwhole hitems 0 [] (.inr (endsValue_bracket rest)) (left + 1)).reads ?_
  have hend : Reads (do if ← moreItems (0 + items.length = 0) then some <$> item else pure none)
      (93 :: rest) none (93 :: rest) := (reads_moreItems_none _ rest).bind (reads_pure none _)
  refine (hend.within _).bind ?_
  show Reads (pure (items.reverse ++ []).reverse) _ _ _
  rw [List.append_nil, List.reverse_reverse]
  exact reads_pure _ _

/-- The text of a list is longer than the number of its items. -/
theorem length_itemsL (hwhole : ∀ v ∈ items, v.IsWhole) (rest : List UInt8) :
    items.length < (bytesOf (itemsL items) ++ 93 :: rest).length := by
  have hparts : (items.map textL).length ≤ (bytesOf (itemsL items)).length := by
    rw [itemsL_eq]
    refine length_le_partsL true fun part hpart => ?_
    obtain ⟨v, hv, rfl⟩ := List.mem_map.1 hpart
    obtain ⟨byte, before, hbytes, -⟩ := (hwhole v hv).exists_byte
    intro hnil
    rw [hnil] at hbytes
    cases hbytes
  rw [List.length_map] at hparts
  rw [List.length_append, List.length_cons]
  omega

theorem bytesOf_list (items : List Json) (rest : List UInt8) :
    bytesOf (textL (.arr items)) ++ rest = 91 :: (bytesOf (itemsL items) ++ 93 :: rest) := by
  simp only [textL, List.cons_append, bytesOf_cons, bytesOf_append, List.append_assoc]
  rfl

theorem reads_closeArray (rest : List UInt8) : Reads closeArray (93 :: rest) () rest :=
  (reads_blanks (by decide) _).bind ((reads_peek _).bind (reads_forward _ _))

end Lists

/-! ## Any value -/

/-- Members in order are put in one behind the other. -/
theorem fills_putMember {depth : Nat} {ms done : Members}
    (hordered : (done ++ ms).Pairwise fun a b => a.1 < b.1)
    (hms : ∀ m ∈ ms, ∀ rest, EndsValue rest →
      Reads (anyValue depth) (bytesOf (textL m.2) ++ rest) m.2 rest) :
    Fills (putMember depth) ms done (done ++ ms) := by
  induction ms generalizing done with
  | nil =>
    rw [List.append_nil]
    exact .nil done
  | cons m ms ih =>
    obtain ⟨name, v⟩ := m
    have hnext : Members.insert name v done = done ++ [(name, v)] := by
      refine Members.insert_eq_append fun a ha => ?_
      exact (List.pairwise_append.1 hordered).2.2 a ha (name, v) List.mem_cons_self
    have hshape : done ++ (name, v) :: ms = done ++ [(name, v)] ++ ms := by simp
    rw [hshape] at hordered ⊢
    refine .cons (fun rest hrest => ?_) (ih hordered fun m hm => hms m (List.mem_cons_of_mem _ hm))
    rw [← hnext]
    have hread := hms _ List.mem_cons_self rest hrest
    exact Reads.within _ ((reads_colon _).bind (hread.bind (reads_pure _ _)))

/-- **Any value is read back**, if no more lists and objects are open at once in it than may be. -/
theorem reads_anyValue {v : Json} (hv : v.IsWhole) {depth : Nat} (hdepth : v.nesting ≤ depth)
    {rest : List UInt8} (hrest : EndsValue rest) :
    Reads (anyValue depth) (bytesOf (textL v) ++ rest) v rest := by
  induction hv generalizing depth rest with
  | null =>
    unfold anyValue
    refine (reads_blanks (show IsToken 110 by decide) _).bind ((reads_peek _).bind ?_)
    exact (reads_forward _ _).bind ((reads_word [117, 108, 108] rest).bind (reads_pure _ _))
  | bool b => exact reads_anyValue_bool b depth rest
  | int hlow hhigh => exact reads_int hlow hhigh depth hrest
  | str s =>
    show Reads _ (bytesOf (quoteL s) ++ rest) _ _
    rw [bytesOf_quoteL, List.cons_append, List.append_assoc]
    unfold anyValue
    refine (reads_blanks (show IsToken 34 by decide) _).bind ((reads_peek _).bind ?_)
    exact (reads_forward _ _).bind (reads_stringRest s rest).map
  | @arr items hwhole ih =>
    obtain ⟨depth, rfl⟩ := Nat.exists_eq_succ_of_ne_zero (Nat.ne_of_gt (Nat.zero_lt_of_lt hdepth))
    have hitems := nestingItems_le.1 (Nat.le_of_succ_le_succ hdepth)
    rw [bytesOf_list]
    unfold anyValue
    refine (reads_blanks (show IsToken 91 by decide) _).bind ((reads_peek _).bind ?_)
    refine (reads_forward _ _).bind ((reads_remaining _).bind (Reads.map ?_))
    refine Reads.enclosed ?_ (reads_closeArray rest)
    exact reads_itemsOnto hwhole (fun v hv rest hrest => ih v hv (hitems v hv) hrest) rest
      (Nat.lt_succ_of_lt (length_itemsL hwhole rest))
  | @obj members hordered hwhole ih =>
    obtain ⟨depth, rfl⟩ := Nat.exists_eq_succ_of_ne_zero (Nat.ne_of_gt (Nat.zero_lt_of_lt hdepth))
    have hmembers := nestingMembers_le.1 (Nat.le_of_succ_le_succ hdepth)
    have hfills : Fills (putMember depth) members [] members :=
      @fills_putMember depth members [] hordered fun m hm rest hrest =>
        ih m hm (hmembers m hm) hrest
    rw [bytesOf_object]
    unfold anyValue
    refine (reads_blanks (show IsToken 123 by decide) _).bind ((reads_peek _).bind ?_)
    refine (reads_forward _ _).bind ((reads_remaining _).bind (Reads.map ?_))
    refine Reads.enclosed ?_ (reads_closeObject rest)
    exact reads_membersOnto hfills rest (Nat.lt_succ_of_lt (length_membersL members rest))

/-- Where null stands for nothing any other value is read back. -/
theorem reads_nullable_any {v : Json} (hv : v.IsWhole) {depth : Nat} (hdepth : v.nesting ≤ depth)
    {rest : List UInt8} (hrest : EndsValue rest) :
    Reads (Decoder.nullable Decoder.any depth) (bytesOf (textL v) ++ rest)
      ((some v).filter (!·.isNull)) rest := by
  by_cases hnull : v = .null
  · rw [hnull]
    exact reads_nullable_null _ _ _
  · obtain ⟨byte, before, hbytes, htoken, -, hfirst⟩ := hv.exists_byte
    have hsome : (some v).filter (!·.isNull) = some v := by
      cases v <;> first | rfl | exact absurd rfl hnull
    have hread := reads_anyValue hv hdepth hrest
    rw [hbytes, List.cons_append] at hread ⊢
    rw [hsome]
    exact reads_nullable_some htoken (fun hbyte => hnull (hfirst hbyte)) hread

/-- An object that is wanted as one is read back too. -/
theorem reads_object {members : Members} (hmembers : (obj members).IsWhole) {depth : Nat}
    (hdepth : (obj members).nesting ≤ depth) (rest : List UInt8) :
    Reads (Decoder.members depth) (bytesOf (textL (.obj members)) ++ rest) members rest := by
  obtain ⟨depth, rfl⟩ := Nat.exists_eq_succ_of_ne_zero (Nat.ne_of_gt (Nat.zero_lt_of_lt hdepth))
  cases hmembers with
  | obj hordered hwhole =>
    refine reads_members ?_ rest
    refine @fills_putMember depth members [] hordered fun m hm rest hrest => ?_
    exact reads_anyValue (hwhole m hm)
      (nestingMembers_le.1 (Nat.le_of_succ_le_succ hdepth) m hm) hrest

end Intranet.Json
