import Intranet.Proofs.Graphql.Bytes
import Intranet.Proofs.Graphql.Depth
import Mathlib.Data.List.Basic

/-!
# Parts of a document read by their bytes

Values, groups, directives and later definitions: the readers that go byte by byte agree with those
that take characters. So in every loop a round takes a character or is the last one, the levels are
enough for every value, and no bracket is closed that is not open.

Main results:

* `value_agrees`: values, on one level more than they may be nested;
* `skipGroup_agrees`: groups, with the count of open brackets;
* `skipDirectives_agrees`, `skipDefinitions_agrees`: what may stand around the root field.
-/

namespace Intranet.Graphql.Bytewise

open Json (bytesOf bytesOf_nil bytesOf_cons bytesOf_append)

variable {all cs rest : List Char} {c : Char} {pos : Nat}

/-! ## Items and members -/

section Loops

variable {q : Taker Json} {read : Reader Json}

theorem itemRound_turn {done : List Json} (hskip : ∀ cs, q.run (Graphql.skipIgnored cs) = q.run cs)
    (h : At all cs pos)
    (hread : ∀ {cs' pos'}, At all cs' pos' → cs'.length ≤ cs.length →
      Agrees told all (read (bytesOf all) pos') (q.run cs')) :
    Turn told all List.reverse id (q.manyOnto ']') done cs
      (itemRound read done.reverse (bytesOf all) pos) := by
  unfold itemRound
  cases he : eat? ']' cs with
  | some rest =>
    obtain ⟨pos', heat, hat⟩ := eat_some (by decide) h he
    rw [bind_ok heat]
    refine .done ?_ hat
    rw [manyOnto_eq, he]
    rfl
  | none =>
    obtain ⟨pos', heat, hat⟩ := eat_none (by decide) h he
    have hitem := hread hat (skipIgnored_length_le cs)
    rw [hskip] at hitem
    rw [bind_ok heat, if_neg (by decide)]
    apply hitem.turn
    · intro v ds pos₂ hv hat₂
      have hdone : done.reverse ++ [v] = (v :: done).reverse := List.reverse_cons.symm
      rw [hdone]
      refine .yield ?_ hat₂ (q.shorter hv)
      rw [manyOnto_eq, he, Option.elim_none, hv]
      rfl
    · intro e hv
      rw [manyOnto_eq, he, Option.elim_none, hv]
      rfl

theorem items_agrees (hskip : ∀ cs, q.run (Graphql.skipIgnored cs) = q.run cs) (h : At all cs pos)
    (hread : ∀ {cs' pos'}, At all cs' pos' → cs'.length ≤ cs.length →
      Agrees told all (read (bytesOf all) pos') (q.run cs')) :
    Agrees told all (items read (bytesOf all) pos) (q.many ']' cs) := by
  have hloop : Agrees told all (items read (bytesOf all) pos)
      ((q.manyOnto ']' [] cs).map (Prod.map id id)) :=
    loop_agrees h fun hat hle => .inl (itemRound_turn hskip hat fun hat' hle' =>
      hread hat' (Nat.le_trans hle' hle))
  rw [Prod.map_id, Except.map_id] at hloop
  exact hloop

/-- One round of members, and the rounds behind it. -/
theorem membersOnto_round (q : Taker Json) (close : Char) (done : Members) (cs : List Char) :
    membersOnto q close done cs = (eat? close cs).elim
      ((Graphql.name cs).bind fun r => (Graphql.expect ':' r.2).bind fun rest =>
        (q.run rest).bind fun s => membersOnto q close (Members.insert r.1 s.1 done) s.2)
      fun rest => .ok (done, rest) := by
  have hround : membersOnto q close done cs = (eat? close cs).elim
      (((pair q).run cs).bind fun r => membersOnto q close (Members.insert r.1.1 r.1.2 done) r.2)
      fun rest => .ok (done, rest) := by
    rw [membersOnto]
    split
    · next rest he =>
      rw [he]
      rfl
    · next he =>
      rw [he]
      split
      · next e hr =>
        rw [hr]
        rfl
      · next key value rest hr =>
        rw [hr]
        rfl
  rw [hround, pair_run_eq]
  cases eat? close cs with
  | some rest => rfl
  | none =>
    dsimp only [Option.elim]
    cases Graphql.name cs with
    | error e => rfl
    | ok r =>
      dsimp only [Except.bind]
      cases Graphql.expect ':' r.2 with
      | error e => rfl
      | ok rest =>
        dsimp only
        cases q.run rest <;> rfl

theorem memberRound_turn {close : Char} {done : Members} (hclose : close.toNat < 128)
    (h : At all cs pos)
    (hread : ∀ {cs' pos'}, At all cs' pos' → cs'.length ≤ cs.length →
      Agrees told all (read (bytesOf all) pos') (q.run cs')) :
    Turn told all id id (membersOnto q close) done cs
      (memberRound read close done (bytesOf all) pos) := by
  have hround := membersOnto_round q close done cs
  unfold memberRound
  cases he : eat? close cs with
  | some rest =>
    obtain ⟨pos', heat, hat⟩ := eat_some hclose h he
    rw [he] at hround
    rw [bind_ok heat]
    exact .done hround hat
  | none =>
    obtain ⟨pos', heat, hat⟩ := eat_none hclose h he
    have hname := name_agrees hat
    rw [name_skipIgnored] at hname
    rw [he, Option.elim_none] at hround
    rw [bind_ok heat, if_neg (by decide)]
    apply hname.turn
    · intro key ds pos₁ hn hat₁
      have hshort₁ := name_shorter hn
      rw [hn] at hround
      change _ = (Graphql.expect ':' ds).bind _ at hround
      apply (expect_agrees (c := ':') (by decide) hat₁).turn
      · intro u ds₂ pos₂ hc hat₂
        obtain ⟨rest, hc, hu⟩ := eq_ok_of_map hc
        cases hu
        have hshort₂ := expect_shorter hc
        rw [hc] at hround
        change _ = (q.run ds₂).bind _ at hround
        apply (hread hat₂ (by omega)).turn
        · intro v ds₃ pos₃ hv hat₃
          have hshort₃ := q.shorter hv
          rw [hv] at hround
          change _ = membersOnto q close (Members.insert key v done) ds₃ at hround
          exact .yield hround hat₃ (by omega)
        · intro e hv
          rw [hround, hv]
          rfl
      · intro e hc
        rw [hround, map_eq_error.mp hc]
        rfl
    · intro e hn
      rw [hround, hn]
      rfl

theorem members_agrees {close : Char} (hclose : close.toNat < 128) (h : At all cs pos)
    (hread : ∀ {cs' pos'}, At all cs' pos' → cs'.length ≤ cs.length →
      Agrees told all (read (bytesOf all) pos') (q.run cs')) :
    Agrees told all (members read close (bytesOf all) pos) (membersOnto q close [] cs) :=
  loop_agrees_self h fun hat hle => .inl (memberRound_turn hclose hat fun hat' hle' =>
    hread hat' (Nat.le_trans hle' hle))

end Loops

/-! ## Values -/

theorem behind_eq {α : Type} {start : Nat} {r : Reader α} {text : List UInt8} (h : start < pos) :
    behind start r text pos = r text pos := by
  show (place >>= _) text pos = _
  rw [place_bind, if_pos h]

theorem filled_zero (given : Members) : (filled given 0).1.run = filledRun given none := by
  rw [filled]

theorem filled_succ (given : Members) (n : Nat) :
    (filled given (n + 1)).1.run = filledRun given (some (filled given n).1) := by
  rw [filled]

theorem filledRun_skipIgnored (given : Members) (inner : Option (Taker Json)) (cs : List Char) :
    filledRun given inner (Graphql.skipIgnored cs) = filledRun given inner cs := by
  unfold filledRun
  rw [skipIgnored_idem]

theorem filled_skipIgnored (given : Members) (n : Nat) (cs : List Char) :
    (filled given n).1.run (Graphql.skipIgnored cs) = (filled given n).1.run cs := by
  cases n with
  | zero => rw [filled_zero, filledRun_skipIgnored]
  | succ n => rw [filled_succ, filledRun_skipIgnored]

section Values

variable {given : Members} {inner : Reader Json} {b : UInt8}

/-- A value other than a list or an object, whatever is read inside those. -/
theorem leaf_agrees (h : At all (c :: cs) pos) (hget : (bytesOf all)[pos]? = some b)
    (hc : ¬(c = '[' ∨ c = '\x7b')) {ds : List Char} (hs : Graphql.skipIgnored ds = c :: cs)
    (plain : Option (Taker Json)) :
    Agrees told all (valueFrom given inner b (bytesOf all) pos) (filledRun given plain ds) := by
  obtain ⟨b', hget', hlatin, hle⟩ := h.byte
  rw [hget] at hget'
  cases hget'
  rw [not_or] at hc
  unfold valueFrom filledRun
  rw [hs]
  dsimp only
  rw [if_neg hc.1, if_neg hc.2, hlatin]
  by_cases hdollar : c = '$'
  · subst hdollar
    rw [if_pos (by decide), if_pos rfl, advance_bind hle]
    exact (name_agrees (h.next_ascii (by decide))).map _
  rw [if_neg (mt (shown_eq_iff (by decide)).mp hdollar), if_neg hdollar]
  by_cases hquote : c = '"'
  · subst hquote
    rw [if_pos (by decide), if_pos rfl]
    exact (string_agrees h).map _
  rw [if_neg (mt (shown_eq_iff (by decide)).mp hquote), if_neg hquote,
    if_neg (mt (shown_eq_iff (by decide)).mp hc.1), if_neg (mt (shown_eq_iff (by decide)).mp hc.2)]
  by_cases hnumber : c = '-' ∨ Decimal.isDigit c = true
  · have hshown : shown c = '-' ∨ Decimal.isDigit (shown c) = true := by
      rwa [shown_eq_iff (by decide), isAscii_isDigit.shown_eq]
    rw [if_pos hshown, if_pos hnumber]
    exact number_agrees h
  · have hshown : ¬(shown c = '-' ∨ Decimal.isDigit (shown c) = true) := by
      rwa [shown_eq_iff (by decide), isAscii_isDigit.shown_eq]
    rw [if_neg hshown, if_neg hnumber, isAscii_isNameStart.shown_eq]
    by_cases hname : isNameStart c = true
    · rw [if_pos hname, if_pos hname]
      exact (name_agrees h).map _
    · rw [if_neg hname, if_neg hname]
      exact unexpected_told hlatin

/-- A list or an object whose values are read alike. -/
theorem bracket_agrees {q : Taker Json} (hskip : ∀ cs, q.run (Graphql.skipIgnored cs) = q.run cs)
    (h : At all (c :: cs) pos) (hget : (bytesOf all)[pos]? = some b) (hc : c = '[' ∨ c = '\x7b')
    {ds : List Char} (hs : Graphql.skipIgnored ds = c :: cs)
    (hinner : ∀ {cs' pos'}, At all cs' pos' → cs'.length ≤ cs.length →
      Agrees told all (inner (bytesOf all) pos') (q.run cs')) :
    Agrees told all (valueFrom given inner b (bytesOf all) pos) (filledRun given (some q) ds) := by
  obtain ⟨b', hget', hlatin, hle⟩ := h.byte
  rw [hget] at hget'
  cases hget'
  unfold valueFrom filledRun
  rw [hs]
  dsimp only
  rw [hlatin]
  rcases hc with rfl | rfl
  · rw [if_neg (by decide), if_neg (by decide), if_pos (by decide), if_pos rfl, advance_bind hle]
    exact (items_agrees hskip (h.next_ascii (by decide)) hinner).map _
  · rw [if_neg (by decide), if_neg (by decide), if_neg (by decide), if_pos (by decide),
      if_neg (by decide), if_pos rfl, advance_bind hle]
    exact (members_agrees (by decide) (h.next_ascii (by decide)) hinner).map _

/-- A value on a level, where the values inside it are read alike if they may be opened there. -/
theorem level_agrees {levels depth : Nat} {plain : Option (Taker Json)}
    (hdeep : plain = none ↔ maxDepth ≤ depth)
    (hinner : ∀ q, plain = some q → (∀ cs, q.run (Graphql.skipIgnored cs) = q.run cs) ∧
      Follows told (value given levels (depth + 1)) q.run) :
    Follows told (value given (levels + 1) depth) (filledRun given plain) := by
  intro all cs pos h
  obtain ⟨pos', hskip, hat⟩ := skipIgnored_agrees h
  rw [value, place_bind, bind_ok hskip, peek_bind]
  cases hs : Graphql.skipIgnored cs with
  | nil =>
    rw [hs] at hat
    rw [hat.getElem?_nil]
    unfold filledRun
    rw [hs]
    exact unexpectedEnd_told
  | cons c rest =>
    have hle := h.le hat (skipIgnored_length_le cs)
    rw [hs] at hat
    obtain ⟨b, hget, hlatin, -⟩ := hat.byte
    have hopens : latin b ∈ ['[', '\x7b'] ↔ c = '[' ∨ c = '\x7b' := by
      rw [hlatin, shown_mem_iff (by decide)]
      simp
    rw [hget]
    dsimp only
    by_cases hc : c = '[' ∨ c = '\x7b'
    · cases plain with
      | none =>
        rw [if_pos ⟨hdeep.mp rfl, hopens.mpr hc⟩]
        unfold filledRun
        rw [hs]
        rcases hc with rfl | rfl
        · exact malformed_told rfl
        · exact malformed_told rfl
      | some q =>
        rw [if_neg fun hboth => absurd (hdeep.mpr hboth.1) (by simp)]
        obtain ⟨hq, hread⟩ := hinner q rfl
        apply bracket_agrees hq hat hget hc hs
        intro cs' pos₂ hat' hlength
        -- the bracket was taken, so the place is behind the one where this value was begun
        have hlt := hat.lt hat' (Nat.lt_succ_of_le hlength)
        rw [behind_eq (by omega)]
        exact hread hat'
    · rw [if_neg fun hboth => hc (hopens.mp hboth.2)]
      exact leaf_agrees hat hget hc hs plain

/-- Values, on as many levels as lists and objects may still be opened, and one more. -/
theorem value_agrees (given : Members) {n depth : Nat} (hd : depth + n = maxDepth) :
    Follows told (value given (n + 1) depth) (filled given n).1.run := by
  induction n generalizing depth with
  | zero =>
    rw [filled_zero]
    apply level_agrees
    · simp only [true_iff]
      omega
    · intro q hq
      cases hq
  | succ n ih =>
    rw [filled_succ]
    apply level_agrees
    · simp only [reduceCtorEq, false_iff]
      omega
    · intro q hq
      cases hq
      exact ⟨filled_skipIgnored given n, ih (by omega)⟩

theorem arguments_agrees (given : Members) :
    Follows told (arguments given) (argumentsAtOnce given) := by
  intro all cs pos h
  apply members_agrees (by decide) h
  intro cs' pos' hat _
  exact value_agrees given (Nat.zero_add maxDepth) hat

end Values

/-! ## Groups -/

theorem isAscii_opening (g : Group) : g.opening.toNat < 128 := by cases g <;> decide

theorem isAscii_closing (g : Group) : g.closing.toNat < 128 := by cases g <;> decide

/-- One more bracket is open than wait for their closing one besides the first. -/
theorem groupRound_turn {g : Group} {depth : Nat} (h : At all cs pos) :
    Turn told all (· + 1) (fun _ : Unit => 0)
        (fun depth cs => (Graphql.skipGroup g depth cs).map fun rest => ((), rest)) depth cs
        (groupRound g.opening g.closing (depth + 1) (bytesOf all) pos) ∨
      Pass all (· + 1) (fun depth cs => (Graphql.skipGroup g depth cs).map fun rest => ((), rest))
        (groupRound g.opening g.closing) depth cs := by
  cases cs with
  | nil =>
    left
    rw [groupRound, peek_bind, h.getElem?_nil]
    dsimp only
    rw [unexpectedEnd_told]
    show Turn _ _ _ _ _ _ _ (.error (told (.openGroup g depth)))
    apply Turn.stop
    rw [skipGroup_nil]
    rfl
  | cons c cs =>
    obtain ⟨b, hget, hlatin, hle⟩ := h.byte
    by_cases hq : c = '"'
    · subst hq
      left
      rw [groupRound, peek_bind, hget]
      dsimp only
      rw [if_pos (by rw [hlatin]; decide)]
      apply (string_agrees h).turn
      · intro s rest pos' hs hat
        refine .yield ?_ hat (string_shorter hs)
        rw [skipGroup_quote, hs]
        rfl
      · intro e hs
        rw [skipGroup_quote, hs]
        rfl
    by_cases ho : c = g.opening
    · subst ho
      left
      rw [groupRound, peek_bind, hget]
      dsimp only
      rw [hlatin, shown_of_ascii (isAscii_opening g), if_neg g.opening_ne_quote, if_pos rfl,
        advance_bind hle]
      refine .yield (u := depth + 1) ?_ (h.next_ascii (isAscii_opening g)) (Nat.lt_succ_self _)
      rw [skipGroup_open]
    by_cases hc : c = g.closing
    · subst hc
      left
      have hnext := h.next_ascii (isAscii_closing g)
      rw [groupRound, peek_bind, hget]
      dsimp only
      rw [hlatin, shown_of_ascii (isAscii_closing g), if_neg g.closing_ne_quote,
        if_neg g.closing_ne_opening, if_pos rfl, advance_bind hle]
      cases depth with
      | zero =>
        refine .done (a := ()) ?_ hnext
        rw [skipGroup_end]
        rfl
      | succ depth =>
        refine .yield (u := depth) ?_ hnext (Nat.lt_succ_self _)
        rw [skipGroup_close]
    · right
      refine .mk (u := depth) (fun s _ => s) ?_ ?_ ?_
      · rw [skipGroup_other hq ho hc]
      · exact List.foldl_fixed _
      · intro s pos b hb hget
        unfold groupRound
        rw [peek_bind, hget]
        dsimp only
        rw [if_neg (latin_ne_of_mem (by decide) hq hb),
          if_neg (latin_ne_of_mem (isAscii_opening g) ho hb),
          if_neg (latin_ne_of_mem (isAscii_closing g) hc hb),
          advance_bind (List.getElem?_eq_some_iff.mp hget).1]
        rfl

theorem skipGroup_agrees (g : Group) : Follows told (skipGroup g.opening g.closing) fun cs =>
    (Graphql.skipGroup g 0 cs).map fun rest => ((), rest) := by
  intro all cs pos h
  have hloop := loop_agrees (t := 0) h fun hat _ => groupRound_turn (g := g) hat
  show Agrees told all ((loop _ 1 >>= _) (bytesOf all) pos) ((Graphql.skipGroup g 0 cs).map _)
  cases hs : Graphql.skipGroup g 0 cs with
  | error e =>
    rw [hs] at hloop
    exact bind_error hloop
  | ok rest =>
    rw [hs] at hloop
    obtain ⟨pos', hr, hat⟩ := hloop
    exact ⟨pos', bind_ok hr, hat⟩

/-! ## Directives -/

/-- Past the arguments that come next, if there are any. -/
def pastArguments (cs : List Char) : Except Malformed (List Char) :=
  (eat? '(' cs).elim (.ok (Graphql.skipIgnored cs)) fun inside =>
    (Graphql.arguments inside).map (·.2)

theorem skipArguments_agrees (given : Members) : Follows told (skipArguments given) fun cs =>
    (pastArguments cs).map fun rest => ((), rest) := by
  intro all cs pos h
  show Agrees told all ((eat '(' >>= _) (bytesOf all) pos) ((pastArguments cs).map _)
  unfold pastArguments
  cases he : eat? '(' cs with
  | none =>
    obtain ⟨pos', heat, hat⟩ := eat_none (by decide) h he
    rw [bind_ok heat]
    exact ⟨pos', rfl, hat⟩
  | some inside =>
    obtain ⟨pos', heat, hat⟩ := eat_some (by decide) h he
    have hargs := (arguments_agrees given hat).map fun _ => ()
    rw [argumentsAtOnce_eq] at hargs
    rw [bind_ok heat]
    dsimp only [Option.elim]
    cases hx : Graphql.arguments inside with
    | error e =>
      rw [hx] at hargs
      exact hargs
    | ok s =>
      rw [hx] at hargs
      exact hargs

theorem pastArguments_length_le {cs rest : List Char} (h : pastArguments cs = .ok rest) :
    rest.length ≤ cs.length := by
  unfold pastArguments at h
  cases he : eat? '(' cs with
  | none =>
    rw [he] at h
    cases h
    exact skipIgnored_length_le cs
  | some inside =>
    rw [he] at h
    obtain ⟨s, hs, rfl⟩ := eq_ok_of_map h
    have := eat?_shorter he
    have := arguments_shorter hs
    omega

/-- One directive, and those behind it. -/
theorem skipDirectives_round (cs : List Char) :
    Graphql.skipDirectives cs = (eat? '@' cs).elim (.ok (Graphql.skipIgnored cs)) fun rest =>
      (Graphql.name rest).bind fun r => (pastArguments r.2).bind Graphql.skipDirectives := by
  have hround : ∀ ds, (pastArguments ds).bind Graphql.skipDirectives =
      (eat? '(' ds).elim (Graphql.skipDirectives ds) fun inside =>
        (Graphql.arguments inside).bind fun s => Graphql.skipDirectives s.2 := by
    intro ds
    unfold pastArguments
    cases eat? '(' ds with
    | none => exact skipDirectives_skipIgnored ds
    | some inside =>
      dsimp only [Option.elim]
      cases Graphql.arguments inside <;> rfl
  rw [skipDirectives_eq]
  simp only [hround]

theorem skipDirectives_agrees (given : Members) : Follows told (skipDirectives given) fun cs =>
    (Graphql.skipDirectives cs).map fun rest => ((), rest) := by
  intro all cs pos h
  refine loop_agrees_self
    (S := fun _ cs => (Graphql.skipDirectives cs).map fun rest => ((), rest)) h ?_
  intro s cs' pos' hat _
  left
  unfold directiveRound
  cases he : eat? '@' cs' with
  | none =>
    obtain ⟨pos'', heat, hat'⟩ := eat_none (by decide) hat he
    rw [bind_ok heat]
    refine .done (a := ()) ?_ hat'
    rw [skipDirectives_round, he]
    rfl
  | some rest =>
    obtain ⟨pos'', heat, hat'⟩ := eat_some (by decide) hat he
    have hshort := eat?_shorter he
    rw [bind_ok heat, if_pos rfl]
    apply (name_agrees hat').turn
    · intro w ds pos₁ hn hat₁
      have hshort₁ := name_shorter hn
      have hrest : Graphql.skipDirectives cs' =
          (pastArguments ds).bind Graphql.skipDirectives := by
        rw [skipDirectives_round, he, Option.elim_some, hn]
        rfl
      apply (skipArguments_agrees given hat₁).turn
      · intro u ds₂ pos₂ hg hat₂
        obtain ⟨ds₃, hp, hu⟩ := eq_ok_of_map hg
        cases hu
        have hle := pastArguments_length_le hp
        refine .yield (u := ()) ?_ hat₂ (by omega)
        rw [hrest, hp]
        rfl
      · intro e hg
        rw [hrest, map_eq_error.mp hg]
        rfl
    · intro e hn
      rw [skipDirectives_round, he, Option.elim_some, hn]
      rfl

/-! ## Later definitions -/

theorem headerRound_turn (h : At all cs pos) :
    Turn told all id id
      (fun _ cs => (Graphql.skipHeader cs).map fun rest => ((), '\x7b' :: rest)) () cs
      (headerRound (bytesOf all) pos) := by
  obtain ⟨pos', hskip, hat⟩ := skipIgnored_agrees h
  rw [headerRound, bind_ok hskip, peek_bind]
  cases hs : Graphql.skipIgnored cs with
  | nil =>
    rw [hs] at hat
    rw [hat.getElem?_nil]
    dsimp only
    rw [unexpectedEnd_told]
    apply Turn.stop
    rw [skipHeader_nil hs]
    rfl
  | cons c rest =>
    have hlength := length_of_skipIgnored hs
    have hround := skipHeader_cons hs
    rw [hs] at hat
    obtain ⟨b, hget, hlatin, hle⟩ := hat.byte
    rw [hget]
    dsimp only
    rw [hlatin]
    by_cases hb : c = '\x7b'
    · subst hb
      rw [if_pos (by decide)]
      refine .done (a := ()) ?_ hat
      rw [hround, if_pos rfl]
      rfl
    rw [if_neg hb] at hround
    rw [if_neg (mt (shown_eq_iff (by decide)).mp hb)]
    by_cases hp : c = '('
    · subst hp
      have hgroup : Agrees told all (skipGroup '(' ')' (bytesOf all) (pos' + 1)) _ :=
        skipGroup_agrees .laterHeader (hat.next_ascii (by decide))
      rw [if_pos rfl] at hround
      rw [if_pos (by decide), advance_bind hle]
      apply hgroup.turn
      · intro u ds pos₂ hg hat₂
        obtain ⟨ds', hg, hu⟩ := eq_ok_of_map hg
        cases hu
        have hshort := skipGroup_shorter hg
        refine .yield (u := ()) ?_ hat₂ (by omega)
        rw [hround, hg]
        rfl
      · intro e hg
        rw [hround, map_eq_error.mp hg]
        rfl
    rw [if_neg hp] at hround
    rw [if_neg (mt (shown_eq_iff (by decide)).mp hp)]
    by_cases hq : c = '"'
    · subst hq
      rw [if_pos rfl] at hround
      rw [if_pos (by decide)]
      apply (string_agrees hat).turn
      · intro s ds pos₂ hstring hat₂
        have hshort := string_shorter hstring
        rw [List.length_cons] at hshort
        refine .yield (u := ()) ?_ hat₂ (by omega)
        rw [hround, hstring]
        rfl
      · intro e hstring
        rw [hround, hstring]
        rfl
    rw [if_neg hq] at hround
    rw [if_neg (mt (shown_eq_iff (by decide)).mp hq), isAscii_isHeaderChar.shown_eq]
    by_cases hc : isHeaderChar c = true
    · rw [if_pos hc] at hround
      rw [if_pos hc, advance_bind hle]
      refine .yield (u := ()) ?_ (hat.next_ascii (isAscii_isHeaderChar c hc)) (by omega)
      rw [hround]
    · rw [if_neg hc] at hround
      rw [if_neg hc, unexpected_told hlatin]
      apply Turn.stop
      rw [hround]
      rfl

theorem skipHeader_agrees : Follows told skipHeader fun cs =>
    (Graphql.skipHeader cs).map fun rest => ((), rest) := by
  intro all cs pos h
  have hloop := loop_agrees_self (s := ()) h fun hat _ => .inl (headerRound_turn hat)
  show Agrees told all ((loop _ () >>= _) (bytesOf all) pos) ((Graphql.skipHeader cs).map _)
  cases hs : Graphql.skipHeader cs with
  | error e =>
    rw [hs] at hloop
    exact bind_error hloop
  | ok rest =>
    rw [hs] at hloop
    obtain ⟨pos', hr, hat⟩ := hloop
    have hnext := hat.next_ascii (by decide)
    rw [bind_ok hr]
    exact ⟨pos' + 1, if_pos hnext.le_length, hnext⟩

theorem definitionRound_turn (h : At all cs pos) :
    Turn told all id id (fun _ cs => (Graphql.skipDefinitions cs).map fun _ => ((), [])) () cs
      (definitionRound (bytesOf all) pos) := by
  obtain ⟨pos', hskip, hat⟩ := skipIgnored_agrees h
  rw [definitionRound, bind_ok hskip, peek_bind]
  cases hs : Graphql.skipIgnored cs with
  | nil =>
    rw [hs] at hat
    rw [hat.getElem?_nil]
    refine .done (a := ()) ?_ hat
    rw [skipDefinitions_nil hs]
    rfl
  | cons c rest =>
    have hlength := length_of_skipIgnored hs
    have hround := skipDefinitions_cons hs
    have hgroup : ∀ {ds pos₂}, At all ds pos₂ → ds.length < cs.length →
        Graphql.skipDefinitions cs =
          (Graphql.skipGroup .laterSelection 0 ds).bind Graphql.skipDefinitions →
        Turn told all id id (fun _ cs => (Graphql.skipDefinitions cs).map fun _ => ((), [])) () cs
          ((skipGroup '\x7b' '\x7d' >>= fun _ => pure (ForInStep.yield ())) (bytesOf all)
            pos₂) := by
      intro ds pos₂ hat₂ hlt hround
      apply (skipGroup_agrees .laterSelection hat₂).turn
      · intro u ds₂ pos₃ hg hat₃
        obtain ⟨ds₃, hg, hu⟩ := eq_ok_of_map hg
        cases hu
        have hshort := skipGroup_shorter hg
        refine .yield (u := ()) ?_ hat₃ (by omega)
        rw [hround, hg]
        rfl
      · intro e hg
        rw [hround, map_eq_error.mp hg]
        rfl
    rw [hs] at hat
    obtain ⟨b, hget, hlatin, hle⟩ := hat.byte
    rw [hget]
    dsimp only
    rw [hlatin]
    by_cases hb : c = '\x7b'
    · subst hb
      rw [if_pos rfl] at hround
      rw [if_pos (by decide), advance_bind hle]
      exact hgroup (hat.next_ascii (by decide)) (by omega) hround
    rw [if_neg hb] at hround
    rw [if_neg (mt (shown_eq_iff (by decide)).mp hb), isAscii_isNameStart.shown_eq]
    by_cases hc : isNameStart c = true
    · rw [if_pos hc] at hround
      rw [if_pos hc]
      apply (name_agrees hat).turn
      · intro word ds pos₂ hn hat₂
        have hshort := name_shorter hn
        rw [List.length_cons] at hshort
        rw [hn] at hround
        change Graphql.skipDefinitions cs = if word ∈ definitionWords then _ else _ at hround
        by_cases hw : word ∈ definitionWords
        · rw [if_pos hw] at hround
          rw [if_pos hw]
          apply (skipHeader_agrees hat₂).turn
          · intro u ds₂ pos₃ hh hat₃
            obtain ⟨ds₃, hh, hu⟩ := eq_ok_of_map hh
            cases hu
            have hshort₂ := skipHeader_shorter hh
            apply hgroup hat₃ (by omega)
            rw [hround, hh]
            rfl
          · intro e hh
            rw [hround, map_eq_error.mp hh]
            rfl
        · rw [if_neg hw] at hround
          rw [if_neg hw, malformed_told (m := .unexpectedName word)]
          · apply Turn.stop
            rw [hround]
            rfl
          · simp only [← String.append_assoc]
            rfl
      · intro e hn
        rw [hround, hn]
        rfl
    · rw [if_neg hc] at hround
      rw [if_neg hc, unexpected_told hlatin]
      apply Turn.stop
      rw [hround]
      rfl

theorem skipDefinitions_agrees : Follows told skipDefinitions fun cs =>
    (Graphql.skipDefinitions cs).map fun _ => ((), []) := by
  intro all cs pos h
  exact loop_agrees_self h fun hat _ => .inl (definitionRound_turn hat)

end Intranet.Graphql.Bytewise
