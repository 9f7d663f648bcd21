import Intranet.Session.Keeper
import Mathlib.Data.List.TakeDrop
import Mathlib.Data.List.TakeWhile

/-!
# Cookies of sessions

Which headers carry a session, and that the cookie of a session tells which session it is.

Main results: `sessionId?_eq_some` (what a header has to carry), `sessionCookie_injective` (no two
sessions have the same cookie, as long as one of them can be presented at all) and
`cookieText_ne_clearingText` (setting a cookie is not clearing it).
-/

namespace Intranet

namespace Http

/-- What stands in a part stands in what is put together of the parts. -/
theorem mem_intercalate_of_mem {parts : List (List Char)} {part : List Char} {sep c : Char}
    (hpart : part ∈ parts) (hc : c ∈ part) : c ∈ [sep].intercalate parts := by
  induction parts with
  | nil => exact absurd hpart List.not_mem_nil
  | cons head tail ih =>
    cases tail with
    | nil =>
      rw [List.mem_singleton.1 hpart] at hc
      rwa [List.intercalate_singleton]
    | cons next rest =>
      rw [List.intercalate_cons_cons, List.mem_append, List.mem_append]
      rcases List.mem_cons.1 hpart with rfl | hpart
      · exact .inl (.inl hc)
      · exact .inr (ih hpart)

/-- What is put together of parts has the characters of the parts, and what is put between them. -/
theorem mem_of_mem_intercalate {parts : List (List Char)} {sep c : Char}
    (hc : c ∈ [sep].intercalate parts) : c = sep ∨ ∃ part ∈ parts, c ∈ part := by
  induction parts with
  | nil => exact absurd hc List.not_mem_nil
  | cons head tail ih =>
    cases tail with
    | nil =>
      rw [List.intercalate_singleton] at hc
      exact .inr ⟨head, List.mem_cons_self, hc⟩
    | cons next rest =>
      rw [List.intercalate_cons_cons, List.mem_append, List.mem_append] at hc
      rcases hc with (hc | hc) | hc
      · exact .inr ⟨head, List.mem_cons_self, hc⟩
      · exact .inl (List.mem_singleton.1 hc)
      · rcases ih hc with hsep | ⟨part, hpart, hc⟩
        · exact .inl hsep
        · exact .inr ⟨part, List.mem_cons_of_mem head hpart, hc⟩

/-- What stands in a part stands in the whole. -/
theorem mem_of_mem_splitOn {cs part : List Char} {sep c : Char} (hpart : part ∈ cs.splitOn sep)
    (hc : c ∈ part) : c ∈ cs := by
  have hmem : c ∈ [sep].intercalate (cs.splitOn sep) := mem_intercalate_of_mem hpart hc
  rwa [List.intercalate_splitOn] at hmem

theorem mem_of_mem_trimL {cs : List Char} {c : Char} (hc : c ∈ Text.trimL cs) : c ∈ cs := by
  unfold Text.trimL Text.trimEndL Text.trimStartL at hc
  have hrev := List.mem_reverse.1 hc
  have hend := (List.dropWhile_sublist _).subset hrev
  exact (List.dropWhile_sublist _).subset (List.mem_reverse.1 hend)

/-- The name of a cookie is what stands before the first equals sign. -/
theorem name_of_cookiePair? {part name value : List Char}
    (h : cookiePair? part = some (name, value)) :
    name = Text.trimL (part.takeWhile (· ≠ '=')) := by
  unfold cookiePair? at h
  split at h
  · cases h
  · next before sign after hspan =>
    simp only [Option.ite_none_left_eq_some, Option.some.injEq, Prod.mk.injEq] at h
    obtain ⟨-, rfl, -⟩ := h
    rw [List.span_eq_takeWhile_dropWhile] at hspan
    exact congrArg Text.trimL (congrArg Prod.fst hspan).symm

/-- The name of a cookie stands in its part. -/
theorem mem_of_cookiePair? {part name value : List Char} {c : Char}
    (h : cookiePair? part = some (name, value)) (hc : c ∈ name) : c ∈ part := by
  rw [name_of_cookiePair? h] at hc
  exact (List.takeWhile_sublist _).subset (mem_of_mem_trimL hc)

/-- The name of a cookie has only characters that headers may have. -/
theorem visible_of_mem_cookiePairs {header : String} {name value : List Char} {c : Char}
    (h : (name, value) ∈ cookiePairs header) (hc : c ∈ name) :
    c = '\t' ∨ 0x20 ≤ c.toNat ∧ c.toNat < 0x7F := by
  unfold cookiePairs at h
  split at h
  · next hvisible =>
    obtain ⟨part, hpart, hpair⟩ := List.mem_filterMap.1 h
    have hmem : c ∈ header.toList := mem_of_mem_splitOn hpart (mem_of_cookiePair? hpair hc)
    have hc := List.all_eq_true.1 hvisible c hmem
    simpa using hc
  · exact absurd h List.not_mem_nil

end Http

namespace Session

open Http (visible_of_mem_cookiePairs)

/-! ## Digits -/

/-- A character that a header value may have. -/
def IsHeaderChar (c : Char) : Prop := c = '\t' ∨ 0x20 ≤ c.toNat ∧ c.toNat ≠ 0x7F

theorem isHeaderValue_iff {s : String} :
    Http.Response.isHeaderValue s = true ↔ ∀ c ∈ s.toList, IsHeaderChar c := by
  simp [Http.Response.isHeaderValue, IsHeaderChar]

theorem isHeaderValue_append (s t : String) :
    Http.Response.isHeaderValue (s ++ t) =
      (Http.Response.isHeaderValue s && Http.Response.isHeaderValue t) := by
  simp [Http.Response.isHeaderValue, String.toList_append, List.all_append]

theorem digit_isHeaderChar {n : Nat} (hn : n < 16) : IsHeaderChar (Hex.digit n) := by
  have hall : ∀ n : Fin 16, 0x20 ≤ (Hex.digit n).toNat ∧ (Hex.digit n).toNat ≠ 0x7F := by decide
  exact .inr (hall ⟨n, hn⟩)

/-- Bytes are written in small digits. -/
theorem exists_of_mem_encodeL {bytes : List UInt8} {c : Char} (hc : c ∈ Hex.encodeL bytes) :
    ∃ n < 16, c = Hex.digit n := by
  obtain ⟨b, -, hb⟩ := List.mem_flatMap.1 hc
  have hlt := b.toNat_lt
  simp only [Hex.encodeByte, List.mem_cons, List.not_mem_nil, or_false] at hb
  rcases hb with rfl | rfl
  · exact ⟨b.toNat / 16, by omega, rfl⟩
  · exact ⟨b.toNat % 16, by omega, rfl⟩

theorem length_encodeL (bytes : List UInt8) : (Hex.encodeL bytes).length = 2 * bytes.length := by
  induction bytes with
  | nil => rfl
  | cons b rest ih =>
    have hcons : Hex.encodeL (b :: rest) = Hex.encodeByte b ++ Hex.encodeL rest := rfl
    rw [hcons, List.length_append, ih, List.length_cons]
    simp only [Hex.encodeByte, List.length_cons, List.length_nil]
    omega

theorem bounds_of_isDigit {c : Char} (hc : Hex.isDigit c = true) :
    0x30 ≤ c.toNat ∧ c.toNat ≤ 0x66 := by
  unfold Hex.isDigit Hex.value? at hc
  split at hc
  · next h =>
    have hlow : 0x30 ≤ c.toNat := h.1
    have hhigh : c.toNat ≤ 0x39 := h.2
    omega
  · split at hc
    · next h =>
      have hlow : 0x61 ≤ c.toNat := h.1
      have hhigh : c.toNat ≤ 0x66 := h.2
      omega
    · split at hc
      · next h =>
        have hlow : 0x41 ≤ c.toNat := h.1
        have hhigh : c.toNat ≤ 0x46 := h.2
        omega
      · cases hc

/-- A digit is one that headers may have, also once it is a small letter. -/
theorem lowerChar_isHeaderChar {c : Char} (hc : Hex.isDigit c = true) :
    IsHeaderChar (Text.lowerChar c) := by
  obtain ⟨hlow, hhigh⟩ := bounds_of_isDigit hc
  refine .inr ?_
  rw [Text.toNat_lowerChar]
  split
  · next h =>
    have hcapital : c.toNat ≤ 0x5A := h.2
    exact ⟨by omega, by omega⟩
  · exact ⟨by omega, by omega⟩

/-- The characters of an identifier that was read are ones that headers may have. -/
theorem isHeaderChar_of_ofDigits? {cs : List Char} {id : Id} (h : Id.ofDigits? cs = some id) :
    ∀ c ∈ id.text.toList, IsHeaderChar c := by
  unfold Id.ofDigits? at h
  split at h
  · next hdigits =>
    cases h
    simp only [Id.isDigits, Bool.and_eq_true, List.all_eq_true] at hdigits
    intro c hc
    rw [String.toList_ofList] at hc
    obtain ⟨d, hd, rfl⟩ := List.mem_map.1 hc
    exact lowerChar_isHeaderChar (hdigits.2 d hd)
  · cases h

/-! ## Signed identifiers -/

/-- A signed identifier tells the identifier, whoever signed it. -/
theorem Signer.signL_injective {s : Signer} {x y : Id} (h : s.signL x = s.signL y) : x = y := by
  unfold Signer.signL at h
  have hlength :
      ('.' :: Hex.encodeL (s.macOf x)).length = ('.' :: Hex.encodeL (s.macOf y)).length := by
    simp [length_encodeL, Signer.macOf, s.length_mac]
  obtain ⟨htext, -⟩ := List.append_inj' h hlength
  have hxy : x.text = y.text := String.toList_inj.1 htext
  cases x
  cases y
  exact congrArg Id.mk hxy

theorem Signer.length_signL (s : Signer) (id : Id) :
    (s.signL id).length = id.text.toList.length + 65 := by
  simp [Signer.signL, length_encodeL, Signer.macOf, s.length_mac]

/-- What a header has to carry for a session. -/
theorem sessionId?_eq_some {k : Keeper} {headers : List String} {id : Id}
    (h : k.sessionId? headers = some id) :
    ∃ header ∈ headers, ∃ value, (k.cookieName.toList, value) ∈ Http.cookiePairs header ∧
      k.signer.verifyL value = some id := by
  obtain ⟨pair, hpair, hvalue⟩ := List.exists_of_findSome?_eq_some h
  obtain ⟨header, hheader, hmem⟩ := List.mem_flatMap.1 hpair
  obtain ⟨name, value⟩ := pair
  simp only at hvalue
  split at hvalue
  · next hname =>
    subst hname
    exact ⟨header, hheader, value, hmem, hvalue⟩
  · cases hvalue

theorem Signer.verifyL_eq_some {s : Signer} {value : List Char} {id : Id}
    (h : s.verifyL value = some id) : ∃ digits, Id.ofDigits? digits = some id := by
  unfold Signer.verifyL at h
  obtain ⟨⟨before, after⟩, -, h⟩ := Option.bind_eq_some_iff.1 h
  obtain ⟨x, hx, h⟩ := Option.bind_eq_some_iff.1 h
  obtain ⟨signature, -, h⟩ := Option.bind_eq_some_iff.1 h
  split at h
  · cases h
    exact ⟨before, hx⟩
  · cases h

/-! ## The cookie of a session -/

/-- The text of the header that sets the cookie of a session, if it can stand in a header. -/
def Keeper.cookieText (k : Keeper) (id : Id) : String :=
  k.cookieName ++ "=" ++ k.signer.sign id ++ "; SameSite=Lax; Path=/; Max-Age=" ++
    toString (min k.ttl Keeper.longestAge)

theorem sessionCookie_eq (k : Keeper) (id : Id) :
    k.sessionCookie id =
      if Http.Response.isHeaderValue (k.cookieText id) then k.cookieText id else "" := rfl

theorem cookieText_injective {k : Keeper} {x y : Id} (h : k.cookieText x = k.cookieText y) :
    x = y := by
  refine Signer.signL_injective (s := k.signer) ?_
  simp only [Keeper.cookieText, String.append_left_inj, String.append_right_inj] at h
  exact String.ofList_injective h

theorem cookieText_ne_empty (k : Keeper) (id : Id) : k.cookieText id ≠ "" := by
  intro hempty
  have hlength := congrArg String.length hempty
  simp [Keeper.cookieText] at hlength

/-- A header that is the text of a session is the cookie of that session. -/
theorem sessionCookie_eq_cookieText {k : Keeper} {x y : Id}
    (h : k.sessionCookie y = k.cookieText x) : y = x := by
  rw [sessionCookie_eq] at h
  split at h
  · exact cookieText_injective h
  · exact absurd h.symm (cookieText_ne_empty k x)

/-- A cookie whose name and identifier can stand in a header can. -/
theorem isHeaderValue_cookieText {k : Keeper} {id : Id}
    (hname : ∀ c ∈ k.cookieName.toList, IsHeaderChar c)
    (hid : ∀ c ∈ id.text.toList, IsHeaderChar c) :
    Http.Response.isHeaderValue (k.cookieText id) = true := by
  have hage (c : Char) (hc : c ∈ (toString (min k.ttl Keeper.longestAge)).toList) :
      IsHeaderChar c := by
    rw [Nat.toString_eq_ofList_toDigits, String.toList_ofList] at hc
    have hdigit := Nat.isDigit_of_mem_toDigits (by decide) (by decide) hc
    have hbounds : 0x30 ≤ c.toNat ∧ c.toNat ≤ 0x39 := Char.isDigit_iff_toNat.1 hdigit
    exact .inr ⟨by omega, by omega⟩
  have hsign (c : Char) (hc : c ∈ (k.signer.sign id).toList) : IsHeaderChar c := by
    rw [Signer.sign, String.toList_ofList] at hc
    rcases List.mem_append.1 hc with hc | hc
    · exact hid c hc
    · rcases List.mem_cons.1 hc with rfl | hc
      · exact .inr (by decide)
      · obtain ⟨n, hn, rfl⟩ := exists_of_mem_encodeL hc
        exact digit_isHeaderChar hn
  have hequals : Http.Response.isHeaderValue "=" = true := by decide
  have hattributes : Http.Response.isHeaderValue "; SameSite=Lax; Path=/; Max-Age=" = true := by
    decide
  simp only [Keeper.cookieText, isHeaderValue_append, hequals, hattributes, Bool.and_eq_true,
    isHeaderValue_iff]
  exact ⟨⟨⟨⟨hname, trivial⟩, hsign⟩, trivial⟩, hage⟩

/-- A cookie of which a session was read can stand in a header. -/
theorem isHeaderValue_of_sessionId? {k : Keeper} {headers : List String} {id : Id}
    (h : k.sessionId? headers = some id) :
    Http.Response.isHeaderValue (k.cookieText id) = true := by
  obtain ⟨header, -, value, hpair, hverify⟩ := sessionId?_eq_some h
  obtain ⟨digits, hdigits⟩ := Signer.verifyL_eq_some hverify
  refine isHeaderValue_cookieText (fun c hc => ?_) (isHeaderChar_of_ofDigits? hdigits)
  rcases visible_of_mem_cookiePairs hpair hc with rfl | ⟨hlow, hhigh⟩
  · exact .inl rfl
  · exact .inr ⟨hlow, by omega⟩

/-- **Cookies tell sessions apart.** A session that some header can carry has a cookie of its
own. -/
theorem sessionCookie_injective {k : Keeper} {headers : List String} {x y : Id}
    (hx : k.sessionId? headers = some x) (h : k.sessionCookie y = k.sessionCookie x) : y = x := by
  have hheader := isHeaderValue_of_sessionId? hx
  rw [sessionCookie_eq k x, if_pos hheader] at h
  exact sessionCookie_eq_cookieText h

end Session

end Intranet
