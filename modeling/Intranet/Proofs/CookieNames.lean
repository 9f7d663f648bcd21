import Intranet.Proofs.CookiePairs
import Intranet.Proofs.Settings
import Intranet.Proofs.Signatures
import Intranet.Proofs.Uuid

/-!
# Which cookies come back

The cookie of a session is set with one set of rules and read with another. Clients keep the pair
at its beginning and send it back, among whatever else they have for the site. It comes back as the
session it was set for when its name is portable, and the check of the settings lets other names
pass too.

* `Http.IsPortable` — names that are read as they were written;
* `Http.Company` — what is sent along with a cookie;
* `Http.cookiePairs_header` — the pairs of a header with a cookie in company;
* `sessionId?_isPortable` — sessions are only read under portable names;
* `sessionId?_kept_iff` — when a cookie comes back.
-/

namespace Intranet

namespace Http

/-! ## Names -/

/-- A name that is read from a header as it was written there: visible, with no blanks at its ends
and none of the two characters that end names. -/
structure IsPortable (name : List Char) : Prop where
  visible : IsVisible name
  trimmed : Text.trimL name = name
  unequal : '=' ∉ name
  undivided : ';' ∉ name

theorem isPortable_iff (name : List Char) :
    IsPortable name ↔ IsVisible name ∧ Text.trimL name = name ∧ '=' ∉ name ∧ ';' ∉ name :=
  ⟨fun h => ⟨h.visible, h.trimmed, h.unequal, h.undivided⟩,
    fun ⟨h₁, h₂, h₃, h₄⟩ => ⟨h₁, h₂, h₃, h₄⟩⟩

instance : DecidablePred IsPortable := fun name => decidable_of_iff _ (isPortable_iff name).symm

/-- Every name that is read is portable. -/
theorem isPortable_of_mem_cookiePairs {header : String} {name value : List Char}
    (h : (name, value) ∈ cookiePairs header) : IsPortable name := by
  have hvisible : IsVisible name := fun c hc => visible_of_mem_cookiePairs h hc
  unfold cookiePairs at h
  split at h
  · obtain ⟨part, hpart, hpair⟩ := List.mem_filterMap.1 h
    refine ⟨hvisible, ?_, fun hmem => ?_, fun hmem => ?_⟩
    · rw [name_of_cookiePair? hpair, Text.trimL_trimL]
    · rw [name_of_cookiePair? hpair] at hmem
      simpa using List.mem_takeWhile_imp (mem_of_mem_trimL hmem)
    · exact not_mem_of_mem_splitOn hpart (mem_of_cookiePair? hpair hmem)
  · exact absurd h List.not_mem_nil

/-- A pair under a portable name is read, with blanks before the name and behind the value. -/
theorem cookiePair?_written {name value lead trail : List Char} (hname : IsPortable name)
    (hne : name ≠ []) (hvalue : ∀ c ∈ value, Text.isBlank c = false)
    (hlead : ∀ c ∈ lead, Text.isBlank c = true) (htrail : ∀ c ∈ trail, Text.isBlank c = true) :
    cookiePair? (lead ++ (name ++ '=' :: value) ++ trail) = some (name, value) := by
  have hbefore : '=' ∉ lead ++ name := by
    intro hc
    rcases List.mem_append.1 hc with hc | hc
    · exact absurd (hlead _ hc) (by decide)
    · exact hname.unequal hc
  have hshape : lead ++ (name ++ '=' :: value) ++ trail =
      (lead ++ name) ++ '=' :: (value ++ trail) := by simp
  rw [cookiePair?_eq_some_iff, hshape, isPair_iff hbefore, Text.trimL_append_left hlead,
    hname.trimmed, Text.trimL_append_right htrail, Text.trimL_eq_self hvalue]
  exact ⟨⟨rfl, rfl⟩, hne⟩

/-! ## Company -/

/-- What a client sends besides one cookie: other headers, other parts of its header, and the
blanks around it there. -/
structure Company where
  earlier : List String
  before : List (List Char)
  lead : List Char
  trail : List Char
  after : List (List Char)
  later : List String
  blank : ∀ c ∈ lead ++ trail, c = ' ' ∨ c = '\t'
  undivided : ∀ part ∈ before ++ after, ';' ∉ part

namespace Company

/-- No company. -/
def none : Company := ⟨[], [], [], [], [], [], by simp, by simp⟩

/-- The header that holds a cookie. -/
def header (c : Company) (cookie : List Char) : String :=
  String.ofList ([';'].intercalate (c.before ++ (c.lead ++ cookie ++ c.trail) :: c.after))

/-- All headers with cookies. -/
def headers (c : Company) (cookie : List Char) : List String :=
  c.earlier ++ c.header cookie :: c.later

theorem header_eq (c : Company) (cookie : List Char) :
    c.header cookie = headerOf (c.before ++ (c.lead ++ cookie ++ c.trail) :: c.after) := rfl

/-- None of the other cookies has this name. -/
structure Foreign (c : Company) (name : List Char) : Prop where
  parts : ∀ part ∈ c.before ++ c.after, (cookiePair? part).map Prod.fst ≠ some name
  others : ∀ header ∈ c.earlier ++ c.later, name ∉ (cookiePairs header).map Prod.fst

theorem Foreign.not_mem_before {c : Company} {name : List Char} (h : c.Foreign name) :
    name ∉ (c.before.filterMap cookiePair?).map Prod.fst := by
  intro hmem
  obtain ⟨pair, hpair, hfound⟩ := List.mem_map.1 hmem
  obtain ⟨part, hpart, hpair⟩ := List.mem_filterMap.1 hpair
  refine h.parts part (List.mem_append_left _ hpart) ?_
  rw [hpair, Option.map_some, hfound]

/-- The other cookies of the header only have characters that servers look at. -/
def Visible (c : Company) : Prop := ∀ part ∈ c.before ++ c.after, IsVisible part

instance (c : Company) : Decidable c.Visible :=
  inferInstanceAs (Decidable (∀ part ∈ c.before ++ c.after, IsVisible part))

theorem isBlank_lead (c : Company) : ∀ x ∈ c.lead, Text.isBlank x = true := by
  intro x hx
  rcases c.blank x (List.mem_append_left _ hx) with rfl | rfl <;> rfl

theorem isBlank_trail (c : Company) : ∀ x ∈ c.trail, Text.isBlank x = true := by
  intro x hx
  rcases c.blank x (List.mem_append_right _ hx) with rfl | rfl <;> rfl

theorem parts_undivided {c : Company} {cookie : List Char} (hcookie : ';' ∉ cookie) :
    ∀ part ∈ c.before ++ (c.lead ++ cookie ++ c.trail) :: c.after, ';' ∉ part := by
  intro part hpart hmem
  rcases List.mem_append.1 hpart with hpart | hpart
  · exact c.undivided part (List.mem_append_left _ hpart) hmem
  rcases List.mem_cons.1 hpart with rfl | hpart
  · have hblank {x : Char} (hx : x ∈ c.lead ++ c.trail) : x ≠ ';' := by
      rcases c.blank x hx with rfl | rfl <;> decide
    rcases List.mem_append.1 hmem with hmem | hmem
    · rcases List.mem_append.1 hmem with hmem | hmem
      · exact hblank (List.mem_append_left _ hmem) rfl
      · exact hcookie hmem
    · exact hblank (List.mem_append_right _ hmem) rfl
  · exact c.undivided part (List.mem_append_right _ hpart) hmem

/-- A header is looked at when all its cookies are visible. -/
theorem isVisibleHeader_header {c : Company} {cookie : List Char} (hcookie : IsVisible cookie) :
    isVisibleHeader (c.header cookie) = true ↔ c.Visible := by
  have hblank (x : Char) (hx : x ∈ c.lead ++ c.trail) :
      x = '\t' ∨ 0x20 ≤ x.toNat ∧ x.toNat < 0x7F := by
    rcases c.blank x hx with rfl | rfl
    · exact .inr (by decide)
    · exact .inl rfl
  have hown : IsVisible (c.lead ++ cookie ++ c.trail) := by
    intro x hx
    rcases List.mem_append.1 hx with hx | hx
    · rcases List.mem_append.1 hx with hx | hx
      · exact hblank x (List.mem_append_left _ hx)
      · exact hcookie x hx
    · exact hblank x (List.mem_append_right _ hx)
  rw [header_eq, isVisibleHeader_headerOf, List.forall_mem_append, List.forall_mem_cons,
    Company.Visible, List.forall_mem_append]
  simp only [hown, true_and]

/-- The pairs of a header that is looked at: those before a cookie, the cookie and those behind
it. -/
theorem cookiePairs_header {c : Company} {name value : List Char} (hname : IsPortable name)
    (hne : name ≠ []) (hvalue : ∀ x ∈ value, Text.isBlank x = false) (hundivided : ';' ∉ value)
    (hvisible : isVisibleHeader (c.header (name ++ '=' :: value)) = true) :
    cookiePairs (c.header (name ++ '=' :: value)) =
      c.before.filterMap cookiePair? ++ (name, value) :: c.after.filterMap cookiePair? := by
  have hcookie : ';' ∉ name ++ '=' :: value := by
    simp [hname.undivided, hundivided]
  have hpair := cookiePair?_written hname hne hvalue c.isBlank_lead c.isBlank_trail
  rw [header_eq] at hvisible ⊢
  rw [cookiePairs_headerOf (parts_undivided hcookie), if_pos hvisible, List.filterMap_append,
    List.filterMap_cons, hpair]

end Company

end Http

namespace Session

open Http (IsPortable IsVisible Company)

/-! ## Sessions -/

/-- What small digits are not, and what they are. -/
theorem digit_spec {n : Nat} (hn : n < 16) :
    Text.isBlank (Hex.digit n) = false ∧ Hex.digit n ≠ ';' ∧ 0x20 ≤ (Hex.digit n).toNat ∧
      (Hex.digit n).toNat < 0x7F := by
  have hall : ∀ n : Fin 16,
      Text.isBlank (Hex.digit n) = false ∧ Hex.digit n ≠ ';' ∧ 0x20 ≤ (Hex.digit n).toNat ∧
        (Hex.digit n).toNat < 0x7F := by decide
  exact hall ⟨n, hn⟩

theorem exists_of_mem_ofUuid {u : Uuid} {c : Char} (hc : c ∈ (Id.ofUuid u).text.toList) :
    ∃ n < 16, c = Hex.digit n := by
  rw [Id.ofUuid, String.toList_ofList] at hc
  exact Hex.exists_of_mem_ofNat hc

/-- Identifiers that are drawn have the digits of identifiers. -/
theorem isCanonical_ofUuid (u : Uuid) : (Id.ofUuid u).IsCanonical := by
  refine ⟨?_, fun c hc => isSmallDigit_iff.2 (exists_of_mem_ofUuid hc)⟩
  rw [Id.ofUuid, String.length_ofList, u.length_digits]

/-- The signed form of an identifier that was drawn is read as that identifier. -/
theorem verifyL_signL (s : Signer) (u : Uuid) :
    s.verifyL (s.signL (.ofUuid u)) = some (.ofUuid u) :=
  s.verifyL_signL (isCanonical_ofUuid u)

/-- Signed identifiers are visible, without blanks, and in one part. -/
theorem signL_spec (s : Signer) (u : Uuid) :
    ∀ c ∈ s.signL (.ofUuid u), Text.isBlank c = false ∧ c ≠ ';' ∧ 0x20 ≤ c.toNat ∧
      c.toNat < 0x7F := by
  intro c hc
  rcases List.mem_append.1 hc with hc | hc
  · obtain ⟨n, hn, rfl⟩ := exists_of_mem_ofUuid hc
    exact digit_spec hn
  rcases List.mem_cons.1 hc with rfl | hc
  · decide
  · obtain ⟨n, hn, rfl⟩ := exists_of_mem_encodeL hc
    exact digit_spec hn

namespace Keeper

variable {k : Keeper}

/-- The pair that a cookie with a session is. -/
def cookieOf (k : Keeper) (u : Uuid) : List Char :=
  k.cookieName.toList ++ '=' :: k.signer.signL (.ofUuid u)

/-- Under a portable name the pair is one part of a header. -/
theorem undivided_cookieOf (hname : IsPortable k.cookieName.toList) (u : Uuid) :
    ';' ∉ k.cookieOf u := by
  intro hc
  rcases List.mem_append.1 hc with hc | hc
  · exact hname.undivided hc
  rcases List.mem_cons.1 hc with hc | hc
  · exact absurd hc (by decide)
  · exact (signL_spec k.signer u _ hc).2.1 rfl

/-- Under a portable name all of the pair is visible. -/
theorem isVisible_cookieOf (hname : IsPortable k.cookieName.toList) (u : Uuid) :
    IsVisible (k.cookieOf u) := by
  intro c hc
  rcases List.mem_append.1 hc with hc | hc
  · exact hname.visible c hc
  rcases List.mem_cons.1 hc with rfl | hc
  · exact .inr (by decide)
  · exact .inr (signL_spec k.signer u c hc).2.2

/-- What clients keep of the cookie of a session: the pair before the first semicolon. -/
def kept (k : Keeper) (id : Id) : List Char := (k.sessionCookie id).toList.takeWhile (· ≠ ';')

/-- Under a portable name clients keep the name and the signed identifier. -/
theorem kept_eq (hname : IsPortable k.cookieName.toList) (u : Uuid) :
    k.kept (.ofUuid u) = k.cookieName.toList ++ '=' :: k.signer.signL (.ofUuid u) := by
  have hheader : Http.Response.isHeaderValue (k.cookieText (.ofUuid u)) = true := by
    refine isHeaderValue_cookieText (fun c hc => ?_) (fun c hc => ?_)
    · rcases hname.visible c hc with rfl | ⟨hlow, hhigh⟩
      · exact .inl rfl
      · exact .inr ⟨hlow, by omega⟩
    · obtain ⟨n, hn, rfl⟩ := exists_of_mem_ofUuid hc
      exact digit_isHeaderChar hn
  have hpair : ∀ c ∈ k.cookieOf u, c ≠ ';' := fun c hc h => undivided_cookieOf hname u (h ▸ hc)
  have htext : (k.cookieText (.ofUuid u)).toList =
      (k.cookieName.toList ++ '=' :: k.signer.signL (.ofUuid u)) ++
        ';' :: (" SameSite=Lax; Path=/; Max-Age=".toList ++
          (toString (min k.ttl Keeper.longestAge)).toList) := by
    simp [cookieText, Signer.sign]
  rw [kept, sessionCookie_eq, if_pos hheader, htext,
    List.takeWhile_append_of_pos fun c hc => by simpa using hpair c hc]
  simp

/-- Under a portable name all of it is visible. -/
theorem isVisible_kept (hname : IsPortable k.cookieName.toList) (u : Uuid) :
    IsVisible (k.kept (.ofUuid u)) := by
  rw [kept_eq hname]
  exact isVisible_cookieOf hname u

/-- Sessions are only read under portable names. -/
theorem sessionId?_isPortable {headers : List String} {id : Id}
    (h : k.sessionId? headers = some id) : IsPortable k.cookieName.toList := by
  obtain ⟨header, -, value, hpair, -⟩ := sessionId?_eq_some h
  exact Http.isPortable_of_mem_cookiePairs hpair

/-- The first pair of the right name counts if its signature is right, whatever comes behind it. -/
theorem sessionId?_first {earlier later : List String} {header : String}
    {before after : List (List Char × List Char)} {value : List Char} {id : Id}
    (hearlier : ∀ h ∈ earlier, k.cookieName.toList ∉ (Http.cookiePairs h).map Prod.fst)
    (hheader : Http.cookiePairs header = before ++ (k.cookieName.toList, value) :: after)
    (hbefore : k.cookieName.toList ∉ before.map Prod.fst)
    (hvalue : k.signer.verifyL value = some id) :
    k.sessionId? (earlier ++ header :: later) = some id := by
  have hpass {f : List Char × List Char → Option Id} {pairs : List (List Char × List Char)}
      (hf : ∀ pair, pair.1 ≠ k.cookieName.toList → f pair = none)
      (hpairs : k.cookieName.toList ∉ pairs.map Prod.fst) : pairs.findSome? f = none := by
    rw [List.findSome?_eq_none_iff]
    intro pair hmem
    refine hf pair fun hname => hpairs ?_
    rw [← hname]
    exact List.mem_map_of_mem hmem
  have hothers : k.cookieName.toList ∉ (earlier.flatMap Http.cookiePairs).map Prod.fst := by
    intro hmem
    obtain ⟨pair, hpair, hname⟩ := List.mem_map.1 hmem
    obtain ⟨h, hh, hpair⟩ := List.mem_flatMap.1 hpair
    exact hearlier h hh (hname ▸ List.mem_map_of_mem hpair)
  rw [sessionId?, List.flatMap_append, List.flatMap_cons, hheader, List.findSome?_append,
    hpass (fun _ hne => if_neg hne) hothers, Option.none_or, List.append_assoc,
    List.findSome?_append, hpass (fun _ hne => if_neg hne) hbefore, Option.none_or,
    List.cons_append, List.findSome?_cons]
  simp only [if_true, hvalue]

/-- In foreign company a session is only read when the company is visible. -/
theorem visible_of_sessionId? {c : Company} {cookie : List Char} {id : Id}
    (hcookie : IsVisible cookie) (hc : c.Foreign k.cookieName.toList)
    (h : k.sessionId? (c.headers cookie) = some id) : c.Visible := by
  obtain ⟨header, hheader, value, hpair, -⟩ := sessionId?_eq_some h
  have hname : k.cookieName.toList ∈ (Http.cookiePairs header).map Prod.fst :=
    List.mem_map_of_mem hpair
  have hown : header = c.header cookie := by
    rcases List.mem_append.1 hheader with hheader | hheader
    · exact absurd hname (hc.others header (List.mem_append_left _ hheader))
    rcases List.mem_cons.1 hheader with hheader | hheader
    · exact hheader
    · exact absurd hname (hc.others header (List.mem_append_right _ hheader))
  rw [← Company.isVisibleHeader_header hcookie, ← hown]
  by_contra hhidden
  rw [Http.cookiePairs, if_neg hhidden] at hpair
  exact absurd hpair List.not_mem_nil

end Keeper

/-- **When cookies come back.** Under settings that pass the check, and among cookies of other
names, the cookie of a session is read as that session if and only if its name is portable and the
other cookies of its header are visible. -/
theorem sessionId?_kept_iff {settings : Settings} (hcheck : settings.check = .ok ())
    (ids : Nat → Id) (u : Uuid) {c : Company} (hc : c.Foreign settings.session.cookieName.toList) :
    let k := Keeper.ofSettings settings.session ids
    k.sessionId? (c.headers (k.kept (.ofUuid u))) = some (.ofUuid u) ↔
      IsPortable settings.session.cookieName.toList ∧ c.Visible := by
  intro k
  constructor
  · intro h
    have hname := Keeper.sessionId?_isPortable h
    exact ⟨hname, Keeper.visible_of_sessionId? (Keeper.isVisible_kept hname u) hc h⟩
  · rintro ⟨hname, hothers⟩
    have hheader :=
      (Company.isVisibleHeader_header (Keeper.isVisible_kept (k := k) hname u)).2 hothers
    rw [Keeper.kept_eq hname] at hheader ⊢
    have hpairs := Company.cookiePairs_header hname (Settings.cookieName_ne_nil hcheck)
      (fun x hx => (signL_spec k.signer u x hx).1) (fun hx => (signL_spec k.signer u _ hx).2.1 rfl)
      hheader
    exact Keeper.sessionId?_first
      (fun header hmem => hc.others header (List.mem_append_left _ hmem)) hpairs hc.not_mem_before
      (verifyL_signL k.signer u)

/-- What a browser sends that keeps two more cookies for the site. -/
def companyOfTheme : Company :=
  ⟨[], ["theme=dark".toList], [' '], [], [" lang=en".toList], [], by simp, by decide⟩

/-- The identifier that is drawn in the cases below. -/
def drawnUuid : Uuid := ⟨0x0123456789abcdef0123456789abcdef⟩

/-- Under the settings that hold when nothing is configured, cookies come back from a browser. -/
theorem sessionId?_kept_default :
    let k := Keeper.ofSettings Settings.default.session fun _ => .ofUuid drawnUuid
    Settings.default.check = .ok () ∧ companyOfTheme.Foreign k.cookieName.toList ∧
      k.sessionId? (companyOfTheme.headers (k.kept (.ofUuid drawnUuid))) =
        some (.ofUuid drawnUuid) := by
  intro k
  have hcheck : Settings.default.check = .ok () := rfl
  have hforeign : companyOfTheme.Foreign Settings.default.session.cookieName.toList :=
    ⟨by decide, by decide⟩
  have hiff := sessionId?_kept_iff hcheck (fun _ => .ofUuid drawnUuid) drawnUuid hforeign
  exact ⟨hcheck, hforeign, hiff.2 ⟨by decide, by decide⟩⟩

/-- Settings with a blank behind the name of the cookie. -/
def blankBehindName : Settings :=
  { Settings.default with session := { Settings.default.session with cookieName := "portal " } }

/-- The check lets a blank behind the name pass, and no cookie comes back then, not even on its
own. -/
theorem sessionId?_blankBehindName :
    let k := Keeper.ofSettings blankBehindName.session fun _ => .ofUuid drawnUuid
    blankBehindName.check = .ok () ∧
      k.sessionId? [String.ofList (k.kept (.ofUuid drawnUuid))] ≠ some (.ofUuid drawnUuid) := by
  intro k
  refine ⟨rfl, fun h => ?_⟩
  have hname : IsPortable "portal ".toList := Keeper.sessionId?_isPortable h
  exact absurd hname (by decide)

end Session

end Intranet
