import Intranet.Proofs.Graphql.Parts

/-!
# Where a group that is passed over ends

A reader of groups takes a text in pieces: a string as a whole, and every character outside of
strings by itself. It stops behind the first piece with which more closing brackets have come than
opening ones, and it stops nowhere else. What the strings hold does not count, nor do brackets of
another kind.

* `string_eq_ok_iff_isString` — the strings that are read, on one line or as a block;
* `Piece.Scans` — the pieces at the front of a text, each string of them well formed;
* `skipGroup_eq_ok_iff` — a group ends where brackets of its kind are first outweighed, whatever
  the depth;
* `group_matched` — the same for the bytes of a text and every place in it, and that all else is
  refused.
-/

namespace Intranet.Graphql

open Json (bytesOf bytesOf_append)

/-! ## Strings at the front of a text -/

/-- A string as the reader of strings takes it off the front of a text, with what is left behind
it: on one line between two quotes, or as a block up to the first three quotes in a row. Two quotes
and a third are the start of a block. What is well formed on one line is what the reader takes
(`Taken`), so a `\u` with a plus sign and three digits counts as well formed here, which it is not
elsewhere. -/
inductive IsString : List Char → List Char → Prop where
  | line {n : Nat} {t s rest : List Char} (h : Taken n t s)
      (hempty : t = [] → ∀ u, rest ≠ '"' :: u) :
    IsString ('"' :: (t ++ ['"'])) rest
  | block {t rest : List Char} (h : ¬['"', '"', '"'] <:+: t ++ ['"', '"']) :
    IsString ('"' :: '"' :: '"' :: (t ++ ['"', '"', '"'])) rest

theorem IsString.head {t rest : List Char} (h : IsString t rest) : ∃ u, t = '"' :: u := by
  cases h with
  | line h => exact ⟨_, rfl⟩
  | block h => exact ⟨_, rfl⟩

/-- What is taken does not start with a quote. -/
theorem Taken.head_ne {n : Nat} {t s u : List Char} (h : Taken n t s) : t ≠ '"' :: u := by
  cases h with
  | nil => simp
  | raw hc _ =>
    simp only [List.mem_cons, not_or] at hc
    simp [hc.1]
  | escape _ _ | unicode _ _ _ _ _ _ | signed _ _ _ _ _ => simp

/-- A block that is read ends at the first three quotes in a row. -/
theorem of_blockOnto {done cs w rest : List Char} (h : blockOnto done cs = .ok (w, rest)) :
    ∃ t, cs = t ++ '"' :: '"' :: '"' :: rest ∧ ¬['"', '"', '"'] <:+: t ++ ['"', '"'] := by
  fun_induction blockOnto done cs with
  | case1 => cases h
  | case2 done cs =>
    cases h
    exact ⟨[], rfl, by decide⟩
  | case3 done c cs hne ih =>
    obtain ⟨t, rfl, ht⟩ := ih h
    refine ⟨c :: t, rfl, fun hin => ?_⟩
    rcases List.infix_cons_iff.mp hin with hstart | hin
    · -- three quotes at the very start would have ended the block there
      obtain ⟨u, hu⟩ := hstart
      rcases t with _ | ⟨d, _ | ⟨e, t⟩⟩
      · cases hu
        exact hne _ rfl rfl
      · cases hu
        exact hne _ rfl rfl
      · cases hu
        exact hne _ rfl rfl
    · exact ht hin

/-- What is read from a quote on is a string. -/
theorem string_eq_ok_iff_isString {cs rest : List Char} :
    (∃ s, string ('"' :: cs) = .ok (s, rest)) ↔ ∃ t, '"' :: cs = t ++ rest ∧ IsString t rest := by
  constructor
  · rintro ⟨s, h⟩
    by_cases hb : ∃ ds, cs = '"' :: '"' :: ds
    · obtain ⟨ds, rfl⟩ := hb
      rw [string_block] at h
      obtain ⟨⟨w, r⟩, hr, hs⟩ := eq_ok_of_map h
      cases hs
      obtain ⟨t, rfl, ht⟩ := of_blockOnto hr
      exact ⟨_, by simp, .block ht⟩
    · have hne : ∀ ds, cs ≠ '"' :: '"' :: ds := fun ds hds => hb ⟨ds, hds⟩
      obtain ⟨n, t, rfl, ht⟩ := (string_eq_ok_iff hne s rest).mp h
      refine ⟨'"' :: (t ++ ['"']), by simp, .line ht ?_⟩
      rintro rfl u rfl
      exact hne u rfl
  · rintro ⟨t, ht, hstring⟩
    cases hstring with
    | @line n t s rest htaken hempty =>
      obtain rfl : cs = t ++ '"' :: rest := by simpa using ht
      refine ⟨String.ofList s, (string_eq_ok_iff (fun ds hds => ?_) _ _).mpr ⟨n, t, rfl, by simpa⟩⟩
      rcases t with _ | ⟨c, t⟩
      · exact hempty rfl ds (List.cons.inj hds).2
      · exact htaken.head_ne (u := t) (by rw [(List.cons.inj hds).1])
    | @block t rest hblock =>
      obtain rfl : cs = '"' :: '"' :: (t ++ '"' :: '"' :: '"' :: rest) := by simpa using ht
      refine ⟨String.ofList t, ?_⟩
      rw [string_block, blockOnto_spelled hblock]
      simp [Except.map]

/-! ## Pieces -/

/-- What a reader of groups takes at once. -/
inductive Piece where
  /-- A character outside of strings. -/
  | char (c : Char)
  /-- A string, from its first quote to its last one. -/
  | string (text : List Char)
  deriving DecidableEq

namespace Piece

/-- The characters of a piece. -/
def text : Piece → List Char
  | char c => [c]
  | string t => t

/-- The pieces stand at the front of a text, and what is left is behind them. A quote only ever
belongs to a string, and each string is well formed. -/
inductive Scans : List Piece → List Char → List Char → Prop where
  | nil {cs : List Char} : Scans [] cs cs
  | char {c : Char} {ps : List Piece} {cs rest : List Char} (hc : c ≠ '"') (h : Scans ps cs rest) :
    Scans (.char c :: ps) (c :: cs) rest
  | string {t : List Char} {ps : List Piece} {cs rest : List Char} (ht : IsString t cs)
    (h : Scans ps cs rest) : Scans (.string t :: ps) (t ++ cs) rest

/-- A text is its pieces and what is left behind them. -/
theorem Scans.eq_append {ps : List Piece} {cs rest : List Char} (h : Scans ps cs rest) :
    cs = ps.flatMap text ++ rest := by
  induction h with
  | nil => rfl
  | char hc _ ih =>
    rw [ih]
    rfl
  | string ht _ ih =>
    rw [ih, List.flatMap_cons, List.append_assoc]
    rfl

end Piece

/-! ## Outweighed brackets -/

namespace Group

variable {g : Group} {depth : Nat} {p : Piece} {ps : List Piece}

/-- The opening brackets among some pieces. -/
def openings (g : Group) (ps : List Piece) : Nat := ps.count (.char g.opening)

/-- The closing brackets among some pieces. -/
def closings (g : Group) (ps : List Piece) : Nat := ps.count (.char g.closing)

/-- With the last of the pieces, and not before, there are more closing brackets than opening ones,
when so many opening ones have come already. -/
def OutweighedBy (g : Group) (depth : Nat) (ps : List Piece) : Prop :=
  g.openings ps + depth < g.closings ps ∧
    ∀ n < ps.length, g.closings (ps.take n) ≤ g.openings (ps.take n) + depth

theorem not_outweighedBy_nil : ¬g.OutweighedBy depth [] := fun h => Nat.not_lt_zero _ h.1

/-- What the first piece adds. -/
theorem outweighedBy_cons : g.OutweighedBy depth (p :: ps) ↔
    g.openings (p :: ps) + depth < g.closings (p :: ps) ∧
      ∀ n < ps.length, g.closings (p :: ps.take n) ≤ g.openings (p :: ps.take n) + depth := by
  unfold OutweighedBy
  rw [List.length_cons, Nat.forall_lt_succ_left]
  simp [openings, closings]

theorem openings_opening : g.openings (.char g.opening :: ps) = g.openings ps + 1 :=
  List.count_cons_self

theorem closings_opening : g.closings (.char g.opening :: ps) = g.closings ps :=
  List.count_cons_of_ne fun h => g.closing_ne_opening (Piece.char.inj h).symm

theorem openings_closing : g.openings (.char g.closing :: ps) = g.openings ps :=
  List.count_cons_of_ne fun h => g.closing_ne_opening (Piece.char.inj h)

theorem closings_closing : g.closings (.char g.closing :: ps) = g.closings ps + 1 :=
  List.count_cons_self

/-- One more opening bracket. -/
theorem outweighedBy_opening :
    g.OutweighedBy depth (.char g.opening :: ps) ↔ g.OutweighedBy (depth + 1) ps := by
  rw [outweighedBy_cons]
  simp only [openings_opening, closings_opening, OutweighedBy, Nat.add_assoc, Nat.add_comm 1]

/-- A closing bracket for one that waits for it. -/
theorem outweighedBy_closing :
    g.OutweighedBy (depth + 1) (.char g.closing :: ps) ↔ g.OutweighedBy depth ps := by
  rw [outweighedBy_cons]
  simp only [openings_closing, closings_closing, OutweighedBy, ← Nat.add_assoc,
    Nat.add_lt_add_iff_right, Nat.add_le_add_iff_right]

/-- A closing bracket for none is the last piece. -/
theorem outweighedBy_end : g.OutweighedBy 0 (.char g.closing :: ps) ↔ ps = [] := by
  rw [outweighedBy_cons]
  constructor
  · rintro ⟨-, h⟩
    cases ps with
    | nil => rfl
    | cons p ps =>
      have h0 := h 0 (Nat.succ_pos _)
      rw [List.take_zero, openings_closing, closings_closing] at h0
      exact absurd h0 (by simp [openings, closings])
  · rintro rfl
    refine ⟨?_, fun n hn => absurd hn (Nat.not_lt_zero n)⟩
    rw [openings_closing, closings_closing]
    exact Nat.succ_pos _

/-- A piece that is no bracket of the group. -/
theorem outweighedBy_other (ho : p ≠ .char g.opening) (hc : p ≠ .char g.closing) :
    g.OutweighedBy depth (p :: ps) ↔ g.OutweighedBy depth ps := by
  have hopenings : ∀ qs, g.openings (p :: qs) = g.openings qs := fun qs => List.count_cons_of_ne ho
  have hclosings : ∀ qs, g.closings (p :: qs) = g.closings qs := fun qs => List.count_cons_of_ne hc
  rw [outweighedBy_cons]
  simp only [hopenings, hclosings, OutweighedBy]

/-- The last piece is a closing bracket. -/
theorem OutweighedBy.getLast? (h : g.OutweighedBy depth ps) :
    ps.getLast? = some (.char g.closing) := by
  induction ps generalizing depth with
  | nil => exact absurd h not_outweighedBy_nil
  | cons p ps ih =>
    have hlast : ∀ {d}, g.OutweighedBy d ps → (p :: ps).getLast? = some (.char g.closing) := by
      intro d hd
      rw [List.getLast?_cons, ih hd]
      rfl
    by_cases ho : p = .char g.opening
    · subst ho
      exact hlast (outweighedBy_opening.mp h)
    by_cases hc : p = .char g.closing
    · subst hc
      cases depth with
      | zero =>
        rw [outweighedBy_end.mp h]
        rfl
      | succ depth => exact hlast (outweighedBy_closing.mp h)
    · exact hlast ((outweighedBy_other ho hc).mp h)

end Group

/-! ## Groups -/

section Groups

variable {g : Group} {depth : Nat} {c : Char} {cs rest : List Char}

/-- Some pieces at the front of the text outweigh the brackets, and so much is left behind them. -/
def Group.EndsAt (g : Group) (depth : Nat) (cs rest : List Char) : Prop :=
  ∃ ps, Piece.Scans ps cs rest ∧ g.OutweighedBy depth ps

/-- The first piece of a text that does not start with a quote is its first character. -/
theorem endsAt_char (hc : c ≠ '"') : g.EndsAt depth (c :: cs) rest ↔
    ∃ ps, Piece.Scans ps cs rest ∧ g.OutweighedBy depth (.char c :: ps) := by
  constructor
  · rintro ⟨ps, hps, hout⟩
    generalize hds : c :: cs = ds at hps
    cases hps with
    | nil => exact absurd hout Group.not_outweighedBy_nil
    | char hd h =>
      cases hds
      exact ⟨_, h, hout⟩
    | string ht h =>
      obtain ⟨u, rfl⟩ := ht.head
      exact absurd (List.cons.inj hds).1 hc
  · rintro ⟨ps, hps, hout⟩
    exact ⟨_, .char hc hps, hout⟩

/-- The first piece of a text that starts with a quote is a string. -/
theorem endsAt_quote : g.EndsAt depth ('"' :: cs) rest ↔
    ∃ t ds, '"' :: cs = t ++ ds ∧ IsString t ds ∧ g.EndsAt depth ds rest := by
  have hopening (t : List Char) : Piece.string t ≠ .char g.opening := Piece.noConfusion
  have hclosing (t : List Char) : Piece.string t ≠ .char g.closing := Piece.noConfusion
  constructor
  · rintro ⟨ps, hps, hout⟩
    generalize hds : '"' :: cs = ds at hps
    cases hps with
    | nil => exact absurd hout Group.not_outweighedBy_nil
    | char hd h => exact absurd (List.cons.inj hds).1.symm hd
    | string ht h =>
      exact ⟨_, _, rfl, ht, _, h, (Group.outweighedBy_other (hopening _) (hclosing _)).mp hout⟩
  · rintro ⟨t, ds, hds, ht, ps, hps, hout⟩
    rw [hds]
    exact ⟨_, .string ht hps, (Group.outweighedBy_other (hopening t) (hclosing t)).mpr hout⟩

/-- A group ends where its brackets are first outweighed, and nowhere else. -/
theorem skipGroup_eq_ok_iff : skipGroup g depth cs = .ok rest ↔ g.EndsAt depth cs rest := by
  induction hn : cs.length using Nat.strongRecOn generalizing cs depth with
  | ind n ih =>
    subst hn
    cases cs with
    | nil =>
      rw [skipGroup_nil]
      constructor
      · intro h
        cases h
      rintro ⟨ps, hps, hout⟩
      generalize hds : ([] : List Char) = ds at hps
      cases hps with
      | nil => exact absurd hout Group.not_outweighedBy_nil
      | char hd h => cases hds
      | string ht h =>
        obtain ⟨u, rfl⟩ := ht.head
        cases hds
    | cons c cs =>
      have hnext := fun d => @ih cs.length (Nat.lt_succ_self _) d cs rfl
      by_cases hq : c = '"'
      · subst hq
        rw [skipGroup_quote, endsAt_quote]
        constructor
        · intro h
          cases hs : string ('"' :: cs) with
          | error e =>
            rw [hs] at h
            cases h
          | ok r =>
            obtain ⟨s, ds⟩ := r
            rw [hs] at h
            obtain ⟨t, ht, hstring⟩ := string_eq_ok_iff_isString.mp ⟨s, hs⟩
            exact ⟨t, ds, ht, hstring, (ih _ (string_shorter hs) rfl).mp h⟩
        · rintro ⟨t, ds, ht, hstring, hends⟩
          obtain ⟨s, hs⟩ := string_eq_ok_iff_isString.mpr ⟨t, ht, hstring⟩
          rw [hs]
          exact (ih _ (string_shorter hs) rfl).mpr hends
      rw [endsAt_char hq]
      by_cases ho : c = g.opening
      · subst ho
        simp only [skipGroup_open, Group.outweighedBy_opening]
        exact hnext (depth + 1)
      by_cases hc : c = g.closing
      · subst hc
        cases depth with
        | zero =>
          simp only [skipGroup_end, Group.outweighedBy_end, Except.ok.injEq]
          constructor
          · rintro rfl
            exact ⟨[], .nil, rfl⟩
          · rintro ⟨_, hps, rfl⟩
            exact hps.eq_append
        | succ depth =>
          simp only [skipGroup_close, Group.outweighedBy_closing]
          exact hnext depth
      · have hchar {d : Char} (hd : c ≠ d) : Piece.char c ≠ .char d :=
          fun h => hd (Piece.char.inj h)
        rw [skipGroup_other hq ho hc]
        simp only [Group.outweighedBy_other (hchar ho) (hchar hc)]
        exact hnext depth

end Groups

/-! ## Bytes -/

namespace Bytewise

variable {g : Group} {before cs rest : List Char} {m : Malformed}

/-- The bytes of a group that ends are passed over up to the place where it ends. -/
theorem skipGroup_of_scans {ps : List Piece} (hps : Piece.Scans ps cs rest)
    (hskip : Graphql.skipGroup g 0 cs = .ok rest) :
    skipGroup g.opening g.closing (bytesOf (before ++ cs)) (bytesOf before).length =
      .ok ((), (bytesOf (before ++ ps.flatMap Piece.text)).length) := by
  obtain rfl := hps.eq_append
  apply Follows.eq_ok (skipGroup_agrees g)
  rw [hskip]
  rfl

/-- The bytes of a group that does not end are refused. -/
theorem skipGroup_of_error (hskip : Graphql.skipGroup g 0 cs = .error m) :
    skipGroup g.opening g.closing (bytesOf (before ++ cs)) (bytesOf before).length =
      .error (told m) := by
  apply Follows.eq_error (skipGroup_agrees g)
  rw [hskip]
  rfl

end Bytewise

/-- **A group ends at its matching bracket.** Whatever stands before a place in a text and behind
it: passing over a group from there succeeds exactly if the text goes on with pieces, its strings
well formed and taken as they are, with the last of which the closing brackets of the group come to
be more than the opening ones for the first time. The place is then the one behind that last piece,
which is a closing bracket, and the reader of characters leaves what stands there. In all other
cases the text is refused as malformed. A number sign is a character like any other, so this holds
with comments in the text and without. The strings are well formed as `IsString` has it, with the
escapes that have a sign among them. -/
theorem group_matched (g : Group) (before cs : List Char) :
    (∀ pos, Bytewise.skipGroup g.opening g.closing (bytesOf (before ++ cs))
        (bytesOf before).length = .ok ((), pos) ↔
      ∃ ps rest, Piece.Scans ps cs rest ∧ g.OutweighedBy 0 ps ∧
        ps.getLast? = some (.char g.closing) ∧
        pos = (bytesOf (before ++ ps.flatMap Piece.text)).length) ∧
    (∀ rest, skipGroup g 0 cs = .ok rest ↔ ∃ ps, Piece.Scans ps cs rest ∧ g.OutweighedBy 0 ps) ∧
    ((∃ m, skipGroup g 0 cs = .error m ∧
        Bytewise.skipGroup g.opening g.closing (bytesOf (before ++ cs)) (bytesOf before).length =
          .error (.refused "GRAPHQL_PARSE_FAILED" m.message)) ↔
      ¬∃ ps rest, Piece.Scans ps cs rest ∧ g.OutweighedBy 0 ps) := by
  have hends : ∀ rest, skipGroup g 0 cs = .ok rest ↔ g.EndsAt 0 cs rest :=
    fun _ => skipGroup_eq_ok_iff
  refine ⟨fun pos => ⟨fun hread => ?_, ?_⟩, hends, ?_, fun hnone => ?_⟩
  · cases hskip : skipGroup g 0 cs with
    | error m =>
      rw [Bytewise.skipGroup_of_error hskip] at hread
      cases hread
    | ok rest =>
      obtain ⟨ps, hps, hout⟩ := (hends rest).mp hskip
      rw [Bytewise.skipGroup_of_scans hps hskip] at hread
      cases hread
      exact ⟨ps, rest, hps, hout, hout.getLast?, rfl⟩
  · rintro ⟨ps, rest, hps, hout, -, rfl⟩
    exact Bytewise.skipGroup_of_scans hps ((hends rest).mpr ⟨ps, hps, hout⟩)
  · rintro ⟨m, hskip, -⟩ ⟨ps, rest, hps, hout⟩
    rw [(hends rest).mpr ⟨ps, hps, hout⟩] at hskip
    cases hskip
  · cases hskip : skipGroup g 0 cs with
    | error m => exact ⟨m, rfl, Bytewise.skipGroup_of_error hskip⟩
    | ok rest =>
      obtain ⟨ps, hps, hout⟩ := (hends rest).mp hskip
      exact absurd ⟨ps, rest, hps, hout⟩ hnone

/-- A bracket in a string and one of another kind do not end the group. -/
example :
    skipGroup .selection 0 "a(x: \"\x7d\") \x7b b ] \x7d \x7d c".toList = .ok " c".toList := by
  decide +kernel

end Intranet.Graphql
