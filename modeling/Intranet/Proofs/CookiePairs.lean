import Intranet.Proofs.Cookies
import Mathlib.Data.List.DropRight

/-!
# Pairs in cookie headers

What a header gives when it is read part by part. Parts are divided by semicolons; a part with an
equals sign is a pair, blanks at the ends of its name and its value do not matter.

* `Text.trimL_append_left`, `Text.trimL_append_right`, `Text.trimL_trimL` — blanks that do not
  matter;
* `Http.IsVisible` — texts that are looked at in headers;
* `Http.cookiePair?_eq_some_iff` — which parts are read, and as what;
* `Http.cookiePairs_headerOf` — the pairs of a header that is put together of parts.
-/

namespace Intranet

namespace Text

theorem trimStartL_append {lead : List Char} (hlead : ∀ c ∈ lead, isBlank c = true)
    (cs : List Char) : trimStartL (lead ++ cs) = trimStartL cs := by
  rw [trimStartL, List.dropWhile_append_of_pos hlead]
  rfl

theorem trimEndL_append {trail : List Char} (htrail : ∀ c ∈ trail, isBlank c = true)
    (cs : List Char) : trimEndL (cs ++ trail) = trimEndL cs := by
  have hreverse : ∀ c ∈ trail.reverse, isBlank c = true :=
    fun c hc => htrail c (List.mem_reverse.1 hc)
  rw [trimEndL, List.reverse_append, List.dropWhile_append_of_pos hreverse]
  rfl

/-- Blanks before a text do not matter. -/
theorem trimL_append_left {lead : List Char} (hlead : ∀ c ∈ lead, isBlank c = true)
    (cs : List Char) : trimL (lead ++ cs) = trimL cs := by
  rw [trimL, trimStartL_append hlead]
  rfl

/-- A text without blanks is not trimmed. -/
theorem trimL_eq_self {cs : List Char} (h : ∀ c ∈ cs, isBlank c = false) : trimL cs = cs := by
  have hkeep {ds : List Char} (hds : ∀ c ∈ ds, isBlank c = false) : ds.dropWhile isBlank = ds := by
    cases ds with
    | nil => rfl
    | cons c rest => rw [List.dropWhile_cons_of_neg (by simp [hds c List.mem_cons_self])]
  rw [trimL, trimStartL, hkeep h, trimEndL, hkeep fun c hc => h c (List.mem_reverse.1 hc),
    List.reverse_reverse]

/-- Blanks behind a text do not matter. -/
theorem trimL_append_right {trail : List Char} (htrail : ∀ c ∈ trail, isBlank c = true)
    (cs : List Char) : trimL (cs ++ trail) = trimL cs := by
  rw [trimL, trimStartL, List.dropWhile_append]
  split
  · next hnil =>
    rw [List.dropWhile_eq_nil_iff.2 htrail, trimL, trimStartL, List.isEmpty_iff.1 hnil]
  · exact trimEndL_append htrail _

/-- What has been trimmed is not trimmed again. -/
theorem trimL_trimL (cs : List Char) : trimL (trimL cs) = trimL cs := by
  have hend (ds : List Char) : trimEndL (trimEndL ds) = trimEndL ds := by
    unfold trimEndL
    rw [List.reverse_reverse, List.dropWhile_idempotent]
  have hstart : trimStartL (trimL cs) = trimL cs := by
    -- What is left begins as the text without its leading blanks does.
    obtain ⟨taken, htaken⟩ : trimL cs <+: trimStartL cs := by
      obtain ⟨front, hfront⟩ := List.dropWhile_suffix isBlank (l := (trimStartL cs).reverse)
      refine ⟨front.reverse, ?_⟩
      rw [trimL, trimEndL, ← List.reverse_append, hfront, List.reverse_reverse]
    cases hleft : trimL cs with
    | nil => rfl
    | cons c rest =>
      rw [hleft, List.cons_append] at htaken
      have hne : trimStartL cs ≠ [] := by
        rw [← htaken]
        exact List.cons_ne_nil _ _
      have hhead := List.head_dropWhile_not isBlank hne
      have hc : isBlank c = false := by
        rw [trimStartL] at htaken
        simpa [← htaken] using hhead
      exact List.dropWhile_cons_of_neg (by simp [hc])
  rw [trimL, hstart]
  exact hend (trimStartL cs)

end Text

namespace Http

/-! ## Visible texts -/

/-- A text that only has characters that servers look at in headers. -/
def IsVisible (cs : List Char) : Prop := ∀ c ∈ cs, c = '\t' ∨ 0x20 ≤ c.toNat ∧ c.toNat < 0x7F

instance : DecidablePred IsVisible := fun cs => List.decidableBAll _ cs

theorem isVisibleHeader_iff (header : String) :
    isVisibleHeader header = true ↔ IsVisible header.toList := by
  simp [isVisibleHeader, IsVisible]

/-- A text that is put together of parts is visible when the parts are. -/
theorem isVisible_intercalate {parts : List (List Char)} :
    IsVisible ([';'].intercalate parts) ↔ ∀ part ∈ parts, IsVisible part := by
  constructor
  · intro h part hpart c hc
    exact h c (mem_intercalate_of_mem hpart hc)
  · intro h c hc
    rcases mem_of_mem_intercalate hc with rfl | ⟨part, hpart, hc⟩
    · exact .inr (by decide)
    · exact h part hpart c hc

/-! ## Parts -/

/-- No part has the character at which a text was parted. -/
theorem not_mem_of_mem_splitOn {cs part : List Char} {sep : Char} (hpart : part ∈ cs.splitOn sep) :
    sep ∉ part := by
  induction cs generalizing part with
  | nil =>
    rw [List.splitOn_nil, List.mem_singleton] at hpart
    subst hpart
    exact List.not_mem_nil
  | cons c rest ih =>
    rw [List.splitOn_cons_eq_if_modifyHead] at hpart
    split at hpart
    · rcases List.mem_cons.1 hpart with rfl | hpart
      · exact List.not_mem_nil
      · exact ih hpart
    · next hc =>
      cases hs : rest.splitOn sep with
      | nil => exact absurd hs (List.splitOn_ne_nil sep rest)
      | cons head tail =>
        rw [hs, List.modifyHead_cons] at hpart
        rcases List.mem_cons.1 hpart with rfl | hpart
        · have hhead := ih (hs ▸ List.mem_cons_self)
          intro hmem
          rcases List.mem_cons.1 hmem with rfl | hmem
          · exact hc (by simp)
          · exact hhead hmem
        · exact ih (hs ▸ List.mem_cons_of_mem head hpart)

/-- A text is taken apart where a character comes up for the first time. -/
theorem span_at {sep : Char} {before : List Char} (hbefore : sep ∉ before) (after : List Char) :
    (before ++ sep :: after).span (· ≠ sep) = (before, sep :: after) := by
  have hne : ∀ c ∈ before, decide (c ≠ sep) = true := by
    intro c hc
    exact decide_eq_true fun h => hbefore (h ▸ hc)
  rw [List.span_eq_takeWhile_dropWhile, List.takeWhile_append_of_pos hne,
    List.dropWhile_append_of_pos hne]
  simp

/-- A part that is a pair: a name and a value around its first equals sign, but for the blanks at
their ends. -/
def IsPair (part name value : List Char) : Prop :=
  ∃ before after, part = before ++ '=' :: after ∧ '=' ∉ before ∧ name = Text.trimL before ∧
    value = Text.trimL after

/-- A part is one pair at most. -/
theorem isPair_iff {before after name value : List Char} (hbefore : '=' ∉ before) :
    IsPair (before ++ '=' :: after) name value ↔
      name = Text.trimL before ∧ value = Text.trimL after := by
  constructor
  · rintro ⟨before', after', hpart, hbefore', rfl, rfl⟩
    have hspan := congrArg (List.span (· ≠ '=')) hpart
    rw [span_at hbefore, span_at hbefore'] at hspan
    cases hspan
    exact ⟨rfl, rfl⟩
  · rintro ⟨rfl, rfl⟩
    exact ⟨before, after, rfl, hbefore, rfl, rfl⟩

theorem not_isPair {part name value : List Char} (hpart : '=' ∉ part) :
    ¬IsPair part name value := by
  rintro ⟨before, after, rfl, -⟩
  exact hpart (List.mem_append_right _ List.mem_cons_self)

/-- The pairs that are read are those with a name. -/
theorem cookiePair?_eq_some_iff {part name value : List Char} :
    cookiePair? part = some (name, value) ↔ IsPair part name value ∧ name ≠ [] := by
  by_cases hsign : '=' ∈ part
  · obtain ⟨before, after, rfl, hbefore⟩ := List.eq_append_cons_of_mem hsign
    rw [isPair_iff hbefore, cookiePair?, span_at hbefore]
    simp only [Option.ite_none_left_eq_some, List.isEmpty_iff, Option.some.injEq, Prod.mk.injEq]
    constructor
    · rintro ⟨hne, rfl, rfl⟩
      exact ⟨⟨rfl, rfl⟩, hne⟩
    · rintro ⟨⟨rfl, rfl⟩, hne⟩
      exact ⟨hne, rfl, rfl⟩
  · have hall : ∀ c ∈ part, decide (c ≠ '=') = true := by
      intro c hc
      exact decide_eq_true fun h => hsign (h ▸ hc)
    rw [cookiePair?, List.span_eq_takeWhile_dropWhile, List.takeWhile_eq_self_iff.2 hall,
      List.dropWhile_eq_nil_iff.2 hall]
    simp [not_isPair hsign]

/-! ## Headers -/

/-- The header that is put together of parts. -/
def headerOf (parts : List (List Char)) : String := String.ofList ([';'].intercalate parts)

/-- A header is looked at when all its parts are visible. -/
theorem isVisibleHeader_headerOf {parts : List (List Char)} :
    isVisibleHeader (headerOf parts) = true ↔ ∀ part ∈ parts, IsVisible part := by
  rw [isVisibleHeader_iff, headerOf, String.toList_ofList, isVisible_intercalate]

/-- The pairs of a header are those of its parts, if it is looked at. -/
theorem cookiePairs_headerOf {parts : List (List Char)} (hparts : ∀ part ∈ parts, ';' ∉ part) :
    cookiePairs (headerOf parts) =
      if isVisibleHeader (headerOf parts) then parts.filterMap cookiePair? else [] := by
  cases parts with
  | nil => rfl
  | cons part rest =>
    have hsplit : (headerOf (part :: rest)).toList.splitOn ';' = part :: rest := by
      rw [headerOf, String.toList_ofList]
      exact List.splitOn_intercalate ';' hparts (List.cons_ne_nil part rest)
    rw [cookiePairs, hsplit]

end Http

end Intranet
