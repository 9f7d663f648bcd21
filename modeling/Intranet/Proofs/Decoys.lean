import Intranet.Proofs.CookieNames
import Mathlib.Logic.Relation

/-!
# Decoys among cookies

The session of a request is the one that the first part of its headers carries: a pair under the
name of the cookie whose value is signed. Everything else is passed over, so clients can be made to
send what they like without hiding the session from the portal or putting another in its place,
with one exception: a header that has other characters than visible ASCII, blanks and tabs is not
looked at, with all of its parts.

* `Keeper.carried?_eq_some_iff`, `Keeper.sessionId?_eq_findSome?` — the parts are searched one by
  one;
* `Keeper.Edit` — what may be put into headers, and taken out of them;
* `Keeper.sessionId?_headerOf`, `Keeper.Edit.sessionId?_eq` — one edit does not change what is
  found;
* `sessionId?_decoys` — which session is found, and that no edits change it;
* `sessionId?_hidden` — a decoy that is not visible hides the session beside it.
-/

namespace Intranet

namespace Http

/-- The parts of the headers that are looked at, header by header and from left to right. -/
def partsOf (headers : List String) : List (List Char) :=
  (headers.filter isVisibleHeader).flatMap fun header => header.toList.splitOn ';'

theorem partsOf_cons (header : String) (headers : List String) :
    partsOf (header :: headers) =
      (if isVisibleHeader header then header.toList.splitOn ';' else []) ++ partsOf headers := by
  rw [partsOf, List.filter_cons]
  split <;> rfl

theorem isVisible_append {cs ds : List Char} :
    IsVisible (cs ++ ds) ↔ IsVisible cs ∧ IsVisible ds :=
  List.forall_mem_append

theorem isVisible_cons {c : Char} {cs : List Char} :
    IsVisible (c :: cs) ↔ (c = '\t' ∨ 0x20 ≤ c.toNat ∧ c.toNat < 0x7F) ∧ IsVisible cs :=
  List.forall_mem_cons

end Http

namespace Session

open Http (IsPair IsPortable IsVisible cookiePair? headerOf partsOf)

namespace Keeper

variable {k : Keeper}

/-! ## The first signed part -/

/-- A part carries a session: it is a pair under the name of the cookie, and its value is
signed. -/
def Carries (k : Keeper) (part : List Char) (id : Id) : Prop :=
  ∃ value, IsPair part k.cookieName.toList value ∧ k.signer.verifyL value = some id

/-- Of some parts the first that carries a session carries this one. -/
def IsFirst (k : Keeper) (parts : List (List Char)) (id : Id) : Prop :=
  ∃ before part after, parts = before ++ part :: after ∧ k.Carries part id ∧
    ∀ decoy ∈ before, ∀ other, ¬k.Carries decoy other

/-- The session that a part carries. -/
def carried? (k : Keeper) (part : List Char) : Option Id :=
  (cookiePair? part).bind fun (name, value) =>
    if name = k.cookieName.toList then k.signer.verifyL value else none

theorem carried?_eq_some_iff (hname : k.cookieName ≠ "") {part : List Char} {id : Id} :
    k.carried? part = some id ↔ k.Carries part id := by
  have hne : k.cookieName.toList ≠ [] := fun h => hname (String.toList_eq_nil_iff.1 h)
  simp only [carried?, Carries, Option.bind_eq_some_iff, Prod.exists, Http.cookiePair?_eq_some_iff,
    Option.ite_none_right_eq_some]
  constructor
  · rintro ⟨name, value, ⟨hpair, -⟩, rfl, hvalue⟩
    exact ⟨value, hpair, hvalue⟩
  · rintro ⟨value, hpair, hvalue⟩
    exact ⟨_, value, ⟨hpair, hne⟩, rfl, hvalue⟩

theorem carried?_eq_none_iff (hname : k.cookieName ≠ "") {part : List Char} :
    k.carried? part = none ↔ ∀ id, ¬k.Carries part id := by
  simp only [Option.eq_none_iff_forall_ne_some, ne_eq, carried?_eq_some_iff hname]

/-- Parts that are looked for among the results of others. -/
theorem findSome?_filterMap {α β γ : Type} (f : α → Option β) (g : β → Option γ) (l : List α) :
    (l.filterMap f).findSome? g = l.findSome? fun a => (f a).bind g := by
  rw [← List.head?_filterMap, List.filterMap_filterMap, List.head?_filterMap]

theorem sessionId?_append (earlier later : List String) :
    k.sessionId? (earlier ++ later) = (k.sessionId? earlier).or (k.sessionId? later) := by
  rw [sessionId?, List.flatMap_append, List.findSome?_append]
  rfl

theorem sessionId?_single (header : String) :
    k.sessionId? [header] =
      if Http.isVisibleHeader header then (header.toList.splitOn ';').findSome? k.carried?
      else none := by
  rw [sessionId?, List.flatMap_singleton, Http.cookiePairs]
  split
  · exact findSome?_filterMap _ _ _
  · rfl

/-- The session of a request is looked for part by part. -/
theorem sessionId?_eq_findSome? (headers : List String) :
    k.sessionId? headers = (partsOf headers).findSome? k.carried? := by
  induction headers with
  | nil => rfl
  | cons header headers ih =>
    rw [← List.singleton_append, sessionId?_append, sessionId?_single, ih, List.singleton_append,
      Http.partsOf_cons, List.findSome?_append]
    split <;> rfl

theorem sessionId?_eq_some_iff (hname : k.cookieName ≠ "") {headers : List String} {id : Id} :
    k.sessionId? headers = some id ↔ k.IsFirst (partsOf headers) id := by
  simp only [sessionId?_eq_findSome?, List.findSome?_eq_some_iff, carried?_eq_some_iff hname,
    carried?_eq_none_iff hname, IsFirst]

/-! ## Decoys -/

/-- A part of a header that carries no session. -/
inductive Decoy (k : Keeper) : List Char → Prop
  /-- A pair of another name. -/
  | otherName {name value : List Char} : '=' ∉ name → Text.trimL name ≠ k.cookieName.toList →
      Decoy k (name ++ '=' :: value)
  /-- A part without an equals sign, as there is between two semicolons in a row. -/
  | noSign {part : List Char} : '=' ∉ part → Decoy k part
  /-- A pair with only blanks for a name. -/
  | noName {name value : List Char} :
      (∀ c ∈ name, Text.isBlank c = true) → Decoy k (name ++ '=' :: value)
  /-- A pair of the right name whose value is not signed. -/
  | unsigned {name value : List Char} : '=' ∉ name → Text.trimL name = k.cookieName.toList →
      k.signer.verifyL (Text.trimL value) = none → Decoy k (name ++ '=' :: value)

theorem Decoy.not_carries (hname : k.cookieName ≠ "") {part : List Char}
    (h : k.Decoy part) (id : Id) : ¬k.Carries part id := by
  rintro ⟨value, hpair, hvalue⟩
  cases h with
  | otherName hsign hother =>
    exact hother ((Http.isPair_iff hsign).1 hpair).1.symm
  | noSign hsign => exact Http.not_isPair hsign hpair
  | @noName name _ hblank =>
    have hsign : '=' ∉ name := fun hc => absurd (hblank _ hc) (by decide)
    have hempty : Text.trimL name = [] := by
      rw [← List.append_nil name, Text.trimL_append_left hblank]
      rfl
    rw [Http.isPair_iff hsign, hempty] at hpair
    exact hname (String.toList_eq_nil_iff.1 hpair.1)
  | unsigned hsign _ hunsigned =>
    rw [((Http.isPair_iff hsign).1 hpair).2, hunsigned] at hvalue
    cases hvalue

/-- What may be put into the headers of a request, and taken out of them again. -/
inductive Edit (k : Keeper) : List String → List String → Prop
  /-- A visible decoy among the parts of a header. -/
  | part {earlier later : List String} {before after : List (List Char)} {decoy : List Char} :
      k.Decoy decoy → IsVisible decoy → (∀ part ∈ before ++ decoy :: after, ';' ∉ part) →
      Edit k (earlier ++ headerOf (before ++ after) :: later)
        (earlier ++ headerOf (before ++ decoy :: after) :: later)
  /-- Blanks before and behind the name and the value of a pair. -/
  | blanks {earlier later : List String} {before after : List (List Char)}
      {name value lead trail lead' trail' : List Char} :
      (∀ c ∈ lead ++ trail ++ lead' ++ trail', c = ' ' ∨ c = '\t') → '=' ∉ name →
      (∀ part ∈ before ++ (name ++ '=' :: value) :: after, ';' ∉ part) →
      Edit k (earlier ++ headerOf (before ++ (name ++ '=' :: value) :: after) :: later)
        (earlier ++ headerOf
          (before ++ (lead ++ name ++ trail ++ '=' :: (lead' ++ value ++ trail')) :: after) ::
          later)
  /-- A header of decoys. -/
  | decoys {earlier later : List String} {header : String} :
      (∀ part ∈ header.toList.splitOn ';', k.Decoy part) →
        Edit k (earlier ++ later) (earlier ++ header :: later)
  /-- A header that is not looked at. -/
  | hidden {earlier later : List String} {header : String} :
      Http.isVisibleHeader header = false → Edit k (earlier ++ later) (earlier ++ header :: later)

/-- What a header carries that is put together of parts. -/
theorem sessionId?_headerOf {parts : List (List Char)} (hparts : ∀ part ∈ parts, ';' ∉ part) :
    k.sessionId? [headerOf parts] =
      if Http.isVisibleHeader (headerOf parts) then parts.findSome? k.carried? else none := by
  rw [sessionId?, List.flatMap_singleton, Http.cookiePairs_headerOf hparts]
  split
  · exact findSome?_filterMap _ _ _
  · rfl

/-- Headers around the ones that are edited do not matter. -/
theorem sessionId?_congr {headers headers' : List String}
    (h : k.sessionId? headers = k.sessionId? headers') (earlier later : List String) :
    k.sessionId? (earlier ++ (headers ++ later)) =
      k.sessionId? (earlier ++ (headers' ++ later)) := by
  simp only [sessionId?_append, h]

/-- A decoy among the parts of a header does not matter if it is visible. -/
theorem sessionId?_part (hname : k.cookieName ≠ "") {before after : List (List Char)}
    {decoy : List Char} (hdecoy : k.Decoy decoy) (hvisible : IsVisible decoy)
    (hparts : ∀ part ∈ before ++ decoy :: after, ';' ∉ part) :
    k.sessionId? [headerOf (before ++ after)] =
      k.sessionId? [headerOf (before ++ decoy :: after)] := by
  have hrest : ∀ part ∈ before ++ after, ';' ∉ part := by
    simp only [List.forall_mem_append, List.forall_mem_cons] at hparts ⊢
    exact ⟨hparts.1, hparts.2.2⟩
  have hsame : Http.isVisibleHeader (headerOf (before ++ after)) =
      Http.isVisibleHeader (headerOf (before ++ decoy :: after)) := by
    rw [Bool.eq_iff_iff]
    simp only [Http.isVisibleHeader_headerOf, List.forall_mem_append,
      List.forall_mem_cons, hvisible, true_and]
  have hnone := (carried?_eq_none_iff hname).2 (hdecoy.not_carries hname)
  rw [sessionId?_headerOf hrest, sessionId?_headerOf hparts, hsame, List.findSome?_append,
    List.findSome?_append, List.findSome?_cons, hnone]

/-- A pair carries the same session with blanks around its name and its value. -/
theorem carried?_blanks (hname : k.cookieName ≠ "")
    {name value lead trail lead' trail' : List Char}
    (hblank : ∀ c ∈ lead ++ trail ++ lead' ++ trail', c = ' ' ∨ c = '\t') (hsign : '=' ∉ name) :
    k.carried? (name ++ '=' :: value) =
      k.carried? (lead ++ name ++ trail ++ '=' :: (lead' ++ value ++ trail')) := by
  have his (c : Char) (hc : c ∈ lead ++ trail ++ lead' ++ trail') : Text.isBlank c = true := by
    rcases hblank c hc with rfl | rfl <;> rfl
  simp only [List.forall_mem_append] at his
  obtain ⟨⟨⟨hlead, htrail⟩, hlead'⟩, htrail'⟩ := his
  have hsign' : '=' ∉ lead ++ name ++ trail := by
    simp only [List.mem_append, not_or]
    refine ⟨⟨fun hc => ?_, hsign⟩, fun hc => ?_⟩
    · exact absurd (hlead _ hc) (by decide)
    · exact absurd (htrail _ hc) (by decide)
  refine Option.ext fun id => ?_
  simp only [carried?_eq_some_iff hname, Carries, Http.isPair_iff hsign, Http.isPair_iff hsign',
    Text.trimL_append_right htrail, Text.trimL_append_right htrail', Text.trimL_append_left hlead,
    Text.trimL_append_left hlead']

/-- Blanks around the name and the value of a pair do not matter. -/
theorem sessionId?_blanks (hname : k.cookieName ≠ "") {before after : List (List Char)}
    {name value lead trail lead' trail' : List Char}
    (hblank : ∀ c ∈ lead ++ trail ++ lead' ++ trail', c = ' ' ∨ c = '\t') (hsign : '=' ∉ name)
    (hparts : ∀ part ∈ before ++ (name ++ '=' :: value) :: after, ';' ∉ part) :
    k.sessionId? [headerOf (before ++ (name ++ '=' :: value) :: after)] =
      k.sessionId? [headerOf
        (before ++ (lead ++ name ++ trail ++ '=' :: (lead' ++ value ++ trail')) :: after)] := by
  have hundivided (c : Char) (hc : c ∈ lead ++ trail ++ lead' ++ trail') : c ≠ ';' := by
    rcases hblank c hc with rfl | rfl <;> decide
  have hvisible : IsVisible (lead ++ trail ++ lead' ++ trail') := by
    intro c hc
    rcases hblank c hc with rfl | rfl
    · exact .inr (by decide)
    · exact .inl rfl
  have hpart : ';' ∉ lead ++ name ++ trail ++ '=' :: (lead' ++ value ++ trail') := by
    have hold := hparts _ (List.mem_append_right _ List.mem_cons_self)
    have hnew : ';' ∉ lead ++ trail ++ lead' ++ trail' := fun hc => hundivided _ hc rfl
    simp only [List.mem_append, List.mem_cons, not_or] at hold hnew ⊢
    obtain ⟨hn, hs, hv⟩ := hold
    obtain ⟨⟨⟨h₁, h₂⟩, h₃⟩, h₄⟩ := hnew
    exact ⟨⟨⟨h₁, hn⟩, h₂⟩, hs, ⟨h₃, hv⟩, h₄⟩
  have hparts' :
      ∀ part ∈ before ++ (lead ++ name ++ trail ++ '=' :: (lead' ++ value ++ trail')) :: after,
        ';' ∉ part := by
    rw [List.forall_mem_append, List.forall_mem_cons] at hparts ⊢
    exact ⟨hparts.1, hpart, hparts.2.2⟩
  have hsame : Http.isVisibleHeader (headerOf (before ++ (name ++ '=' :: value) :: after)) =
      Http.isVisibleHeader (headerOf
        (before ++ (lead ++ name ++ trail ++ '=' :: (lead' ++ value ++ trail')) :: after)) := by
    rw [Bool.eq_iff_iff]
    simp only [Http.isVisible_append] at hvisible
    obtain ⟨⟨⟨hlead, htrail⟩, hlead'⟩, htrail'⟩ := hvisible
    simp only [Http.isVisibleHeader_headerOf, List.forall_mem_append, List.forall_mem_cons,
      Http.isVisible_append, Http.isVisible_cons, hlead, htrail, hlead', htrail',
      true_and, and_true]
  rw [sessionId?_headerOf hparts, sessionId?_headerOf hparts', hsame, List.findSome?_append,
    List.findSome?_append, List.findSome?_cons, List.findSome?_cons,
    carried?_blanks hname hblank hsign]

/-- One edit does not change which session is found. -/
theorem Edit.sessionId?_eq (hname : k.cookieName ≠ "") {headers headers' : List String}
    (h : k.Edit headers headers') : k.sessionId? headers = k.sessionId? headers' := by
  have hskip {header : String} (hnone : k.sessionId? [header] = none)
      (earlier later : List String) :
      k.sessionId? (earlier ++ later) = k.sessionId? (earlier ++ header :: later) := by
    have hempty : k.sessionId? [] = k.sessionId? [header] := hnone.symm
    exact sessionId?_congr hempty earlier later
  cases h with
  | part hdecoy hvisible hparts =>
    exact sessionId?_congr (sessionId?_part hname hdecoy hvisible hparts) _ _
  | blanks hblank hsign hparts =>
    exact sessionId?_congr (sessionId?_blanks hname hblank hsign hparts) _ _
  | decoys hdecoys =>
    refine hskip ?_ _ _
    rw [sessionId?_single]
    split
    · rw [List.findSome?_eq_none_iff]
      intro part hpart
      exact (carried?_eq_none_iff hname).2 ((hdecoys part hpart).not_carries hname)
    · rfl
  | hidden hhidden =>
    refine hskip ?_ _ _
    rw [sessionId?_single, hhidden]
    rfl

/-! ## Signed cookies -/

/-- Under a portable name the pair carries the session. -/
theorem carries_cookieOf (hname : IsPortable k.cookieName.toList) (u : Uuid) :
    k.Carries (k.cookieOf u) (.ofUuid u) := by
  refine ⟨k.signer.signL (.ofUuid u), ?_, verifyL_signL k.signer u⟩
  rw [cookieOf, Http.isPair_iff hname.unequal, hname.trimmed,
    Text.trimL_eq_self fun c hc => (signL_spec k.signer u c hc).1]
  exact ⟨rfl, rfl⟩

/-- A cookie on its own is found. -/
theorem sessionId?_cookieOf (hne : k.cookieName ≠ "")
    (hname : IsPortable k.cookieName.toList) (u : Uuid) :
    k.sessionId? [headerOf [k.cookieOf u]] = some (.ofUuid u) := by
  have hundivided : ∀ part ∈ [k.cookieOf u], ';' ∉ part := by
    simpa using undivided_cookieOf hname u
  have hvisible : Http.isVisibleHeader (headerOf [k.cookieOf u]) = true := by
    rw [Http.isVisibleHeader_headerOf]
    simpa using isVisible_cookieOf hname u
  rw [sessionId?_headerOf hundivided, if_pos hvisible, List.findSome?_singleton,
    (carried?_eq_some_iff hne).2 (carries_cookieOf hname u)]

end Keeper

/-- **Decoys are passed over.** Of the parts of all headers that are looked at, the first one that
carries a session carries the session of the request, and none is found when there is none. So it
stays the same however often decoys, blanks and headers that are not looked at are put in or taken
out. -/
theorem sessionId?_decoys {k : Keeper} (hname : k.cookieName ≠ "") (headers : List String) :
    (∀ id, k.sessionId? headers = some id ↔ k.IsFirst (partsOf headers) id) ∧
      (k.sessionId? headers = none ↔ ∀ part ∈ partsOf headers, ∀ id, ¬k.Carries part id) ∧
      ∀ headers', Relation.EqvGen k.Edit headers headers' →
        k.sessionId? headers' = k.sessionId? headers := by
  refine ⟨fun id => Keeper.sessionId?_eq_some_iff hname, ?_, fun headers' h => ?_⟩
  · simp only [Keeper.sessionId?_eq_findSome?, List.findSome?_eq_none_iff,
      Keeper.carried?_eq_none_iff hname]
  · induction h with
    | rel _ _ h => exact (h.sessionId?_eq hname).symm
    | refl => rfl
    | symm _ _ _ ih => exact ih.symm
    | trans _ _ _ _ _ ih₁ ih₂ => exact ih₂.trans ih₁

/-- The keeper under the settings that hold when nothing is configured. -/
def defaultKeeper : Keeper := .ofSettings Settings.default.session fun _ => .ofUuid drawnUuid

/-- A cookie behind a forged one and among others, in the second of two headers of which the first
is not looked at. -/
def headersWithDecoys : List String :=
  ["lang=é",
    headerOf ["theme=dark".toList, " portal=forged".toList, [], defaultKeeper.cookieOf drawnUuid]]

/-- The session of a cookie is found among decoys as it is without them. -/
theorem sessionId?_headersWithDecoys :
    defaultKeeper.cookieName ≠ "" ∧
      Relation.EqvGen defaultKeeper.Edit [headerOf [defaultKeeper.cookieOf drawnUuid]]
        headersWithDecoys ∧
      defaultKeeper.sessionId? headersWithDecoys = some (.ofUuid drawnUuid) := by
  have hne : defaultKeeper.cookieName ≠ "" := by decide
  have hname : IsPortable defaultKeeper.cookieName.toList := by decide
  have hcookie := Keeper.undivided_cookieOf hname drawnUuid
  have hlast : defaultKeeper.Edit [headerOf [defaultKeeper.cookieOf drawnUuid]]
      [headerOf [[], defaultKeeper.cookieOf drawnUuid]] :=
    @Keeper.Edit.part _ [] [] [] [defaultKeeper.cookieOf drawnUuid] [] (.noSign (by decide))
      (by decide) (by simpa using hcookie)
  have hforged : defaultKeeper.Edit [headerOf [[], defaultKeeper.cookieOf drawnUuid]]
      [headerOf [" portal=forged".toList, [], defaultKeeper.cookieOf drawnUuid]] :=
    @Keeper.Edit.part _ [] [] [] [[], defaultKeeper.cookieOf drawnUuid] _
      (@Keeper.Decoy.unsigned _ " portal".toList "forged".toList (by decide) (by decide) rfl)
      (by decide) (by simpa using hcookie)
  have htheme : defaultKeeper.Edit
      [headerOf [" portal=forged".toList, [], defaultKeeper.cookieOf drawnUuid]]
      [headerOf ["theme=dark".toList, " portal=forged".toList, [],
        defaultKeeper.cookieOf drawnUuid]] :=
    @Keeper.Edit.part _ [] [] [] [" portal=forged".toList, [], defaultKeeper.cookieOf drawnUuid] _
      (@Keeper.Decoy.otherName _ "theme".toList "dark".toList (by decide) (by decide)) (by decide)
      (by simpa using hcookie)
  have hlang : defaultKeeper.Edit
      [headerOf ["theme=dark".toList, " portal=forged".toList, [],
        defaultKeeper.cookieOf drawnUuid]]
      headersWithDecoys := @Keeper.Edit.hidden _ [] _ "lang=é" (by decide)
  have hedits : Relation.EqvGen defaultKeeper.Edit [headerOf [defaultKeeper.cookieOf drawnUuid]]
      headersWithDecoys :=
    .trans _ _ _ (.rel _ _ hlast) (.trans _ _ _ (.rel _ _ hforged)
      (.trans _ _ _ (.rel _ _ htheme) (.rel _ _ hlang)))
  obtain ⟨-, -, hsame⟩ := sessionId?_decoys hne [headerOf [defaultKeeper.cookieOf drawnUuid]]
  exact ⟨hne, hedits, (hsame _ hedits).trans (Keeper.sessionId?_cookieOf hne hname drawnUuid)⟩

/-- A decoy that is not visible hides the session beside it, since its header is not looked at. -/
theorem sessionId?_hidden :
    defaultKeeper.Decoy "x=é".toList ∧
      defaultKeeper.sessionId? [headerOf [defaultKeeper.cookieOf drawnUuid]] =
        some (.ofUuid drawnUuid) ∧
      defaultKeeper.sessionId? [headerOf ["x=é".toList, defaultKeeper.cookieOf drawnUuid]] =
        none := by
  have hname : IsPortable defaultKeeper.cookieName.toList := by decide
  have hundivided : ∀ part ∈ ["x=é".toList, defaultKeeper.cookieOf drawnUuid], ';' ∉ part := by
    simpa using Keeper.undivided_cookieOf hname drawnUuid
  have hhidden : ¬Http.isVisibleHeader
      (headerOf ["x=é".toList, defaultKeeper.cookieOf drawnUuid]) = true := by
    rw [Http.isVisibleHeader_headerOf]
    exact fun h => absurd (h _ List.mem_cons_self) (by decide)
  refine ⟨@Keeper.Decoy.otherName _ "x".toList "é".toList (by decide) (by decide),
    Keeper.sessionId?_cookieOf (by decide) hname drawnUuid, ?_⟩
  rw [Keeper.sessionId?_headerOf hundivided, if_neg hhidden]

end Session

end Intranet
