import Intranet.Proofs.Json.Values

/-!
# Where reading gives up

A reader opens so many lists and objects inside one another and no more. A value that goes deeper
is printed all the same, and then it is not read back: the reader gives up where one too many is
opened, and so does everything around it.

* `GivesUp` — the reader gives up on whatever line and column;
* `givesUp_itemsOnto`, `givesUp_membersOnto` — lists and objects do so at their first item or
  member that goes too deep;
* `givesUp_anyValue`, `givesUp_object` — any value that goes too deep, and an object that is wanted
  as one;
* `givesUp_record`, `runText_of_givesUp` — a record with such a value, and a whole text.
-/

namespace Intranet.Json

variable {α β σ : Type}

/-- The reader gives up because one list or object too many is opened, on whatever line and
column. -/
def GivesUp (r : Reader α) (before : List UInt8) : Prop :=
  ∀ line column, ∃ problem after, r ⟨before, line, column⟩ = .failed problem after ∧
    problem.cause = .malformed .tooDeep

section Readers

variable {r r' : Reader α} {f : α → Reader β} {a : α} {x y : List UInt8}

theorem givesUp_haltAhead (x : List UInt8) : GivesUp (haltAhead .tooDeep : Reader α) x :=
  fun _ _ => ⟨_, _, rfl, rfl⟩

theorem GivesUp.bind (h : GivesUp r x) : GivesUp (r >>= f) x := by
  intro line column
  obtain ⟨problem, after, hr, hcause⟩ := h line column
  refine ⟨problem, after, ?_, hcause⟩
  show Reader.bind r f _ = _
  rw [Reader.bind, hr]

theorem GivesUp.map {g : α → β} (h : GivesUp r x) : GivesUp (g <$> r) x := h.bind

theorem Leads.givesUp (h : Leads r x r' y) (hr : GivesUp r' y) : GivesUp r x := by
  intro line column
  obtain ⟨line₁, column₁, h₁⟩ := h line column
  obtain ⟨problem, after, h₂, hcause⟩ := hr line₁ column₁
  exact ⟨problem, after, h₁.trans h₂, hcause⟩

/-- Where the second of two readers gives up, both do. -/
theorem Reads.givesUp (hr : Reads r x a y) (hf : GivesUp (f a) y) : GivesUp (r >>= f) x :=
  hr.leads.givesUp hf

theorem GivesUp.settled (h : GivesUp r x) : GivesUp (settled r) x := by
  intro line column
  obtain ⟨problem, after, hr, hcause⟩ := h line column
  refine ⟨{ problem with place := problem.place.orElse fun _ => some (after.line, after.column) },
    after, ?_, hcause⟩
  rw [Json.settled, hr]

theorem GivesUp.within (step : Step) (h : GivesUp r x) : GivesUp (within step r) x := by
  intro line column
  obtain ⟨problem, after, hr, hcause⟩ := h line column
  refine ⟨{ problem with path := step :: problem.path }, after, ?_, hcause⟩
  rw [Json.within, hr]

/-- What is in brackets decides, whatever comes of the closing one. -/
theorem GivesUp.enclosed (closing : Reader Unit) (h : GivesUp r x) :
    GivesUp (enclosed r closing) x := by
  intro line column
  obtain ⟨problem, after, hr, hcause⟩ := h line column
  simp only [Json.enclosed, hr]
  cases closing after with
  | done => exact ⟨problem, _, rfl, hcause⟩
  | failed => exact ⟨problem, _, rfl, hcause⟩

end Readers

/-! ## Lists and objects -/

/-- What follows some parts: nothing that a value could run into. -/
theorem eq_nil_or_endsValue {γ : Type} (parts : List γ) (part : List Char)
    (more : List (List Char)) (rest : List UInt8) :
    parts = [] ∨ EndsValue (bytesOf (partsL parts.isEmpty (part :: more)) ++ rest) := by
  cases parts with
  | nil => exact .inl rfl
  | cons => exact .inr (endsValue_comma _)

/-- A list is given up at an item that goes too deep, when those before it are read. -/
theorem givesUp_itemsOnto {item : Reader Json} {before later : List Json} {v : Json}
    (hwhole : ∀ w ∈ before, w.IsWhole) (hv : v.IsWhole)
    (hitems : ∀ w ∈ before, ∀ rest, EndsValue rest → Reads item (bytesOf (textL w) ++ rest) w rest)
    (hgive : ∀ rest, GivesUp item (bytesOf (textL v) ++ rest)) (rest : List UInt8) {rounds : Nat}
    (hrounds : before.length < rounds) :
    GivesUp (itemsOnto item rounds 0 []) (bytesOf (itemsL (before ++ v :: later)) ++ rest) := by
  obtain ⟨left, rfl⟩ : ∃ left, rounds = left + 1 + before.length :=
    ⟨rounds - 1 - before.length, by omega⟩
  have hbytes : bytesOf (itemsL (before ++ v :: later)) ++ rest =
      bytesOf (partsL true (before.map textL)) ++
        (bytesOf (partsL before.isEmpty (textL v :: later.map textL)) ++ rest) := by
    rw [itemsL_eq, List.map_append, partsL_append, bytesOf_append, List.append_assoc,
      List.map_cons, List.isEmpty_map, Bool.true_and]
  have hfirst : (decide (0 + before.length = 0)) = before.isEmpty := by
    cases before <;> simp
  have hnext :=
    hv.reads_moreItems before.isEmpty (bytesOf (partsL false (later.map textL)) ++ rest)
  have hitem :
      GivesUp (do if ← moreItems (0 + before.length = 0) then some <$> item else pure none)
      (bytesOf (partsL before.isEmpty (textL v :: later.map textL)) ++ rest) := by
    rw [hfirst, partsL, bytesOf_append, List.append_assoc]
    exact hnext.givesUp (hgive _).map
  rw [hbytes]
  refine (leads_itemsOnto hwhole hitems 0 [] (eq_nil_or_endsValue before _ _ rest)
    (left + 1)).givesUp ?_
  exact (hitem.within _).bind

/-- An object is given up at a member that goes too deep, when those before it are read. -/
theorem givesUp_membersOnto {value : String → σ → Reader σ} {before later : Members}
    {name : String} {v : Json} {s s' : σ} (hfills : Fills value before s s')
    (hgive : ∀ rest, GivesUp (value name s') (58 :: bytesOf (textL v) ++ rest)) (rest : List UInt8)
    {rounds : Nat} (hrounds : before.length < rounds) :
    GivesUp (membersOnto value rounds true s)
      (bytesOf (membersL (before ++ (name, v) :: later)) ++ rest) := by
  obtain ⟨left, rfl⟩ : ∃ left, rounds = left + 1 + before.length :=
    ⟨rounds - 1 - before.length, by omega⟩
  have hbytes : bytesOf (membersL (before ++ (name, v) :: later)) ++ rest =
      bytesOf (partsL true (before.map memberL)) ++
        (bytesOf (partsL before.isEmpty (memberL (name, v) :: later.map memberL)) ++ rest) := by
    rw [membersL_eq, List.map_append, partsL_append, bytesOf_append, List.append_assoc,
      List.map_cons, List.isEmpty_map, Bool.true_and]
  rw [hbytes]
  refine (leads_membersOnto hfills true (eq_nil_or_endsValue before _ _ rest)
    (left + 1)).givesUp ?_
  rw [Bool.true_and, bytesOf_member]
  exact ((reads_nextName before.isEmpty name _).within _).givesUp (hgive _).bind

/-! ## Any value -/

/-- The first of several values that go too deep. -/
theorem exists_first_deep {γ : Type} {depth : Nat} {f : γ → Json} {l : List γ}
    (h : ¬∀ a ∈ l, (f a).nesting ≤ depth) :
    ∃ before a later, l = before ++ a :: later ∧ depth < (f a).nesting ∧
      ∀ b ∈ before, (f b).nesting ≤ depth := by
  cases hfind : l.find? fun a => depth < (f a).nesting with
  | none =>
    refine absurd (fun a ha => ?_) h
    simpa using List.find?_eq_none.1 hfind a ha
  | some a =>
    obtain ⟨ha, before, later, hl, hbefore⟩ := List.find?_eq_some_iff_append.1 hfind
    exact ⟨before, a, later, hl, by simpa using ha, fun b hb => by simpa using hbefore b hb⟩

/-- Members are given up at the first one that goes too deep. -/
theorem givesUp_putMember {depth : Nat} {members : Members}
    (hordered : members.Pairwise fun a b => a.1 < b.1) (hwhole : ∀ m ∈ members, m.2.IsWhole)
    (hgive : ∀ m ∈ members, depth < m.2.nesting →
      ∀ rest, GivesUp (anyValue depth) (bytesOf (textL m.2) ++ rest))
    (hdeep : depth < nestingMembers members) (rest : List UInt8) {rounds : Nat}
    (hrounds : members.length < rounds) :
    GivesUp (membersOnto (putMember depth) rounds true [])
      (bytesOf (membersL members) ++ rest) := by
  have hsome : ¬∀ m ∈ members, m.2.nesting ≤ depth := by
    rw [← nestingMembers_le, Nat.not_le]
    exact hdeep
  obtain ⟨before, ⟨name, v⟩, later, rfl, hv, hbefore⟩ := exists_first_deep hsome
  have hfills : Fills (putMember depth) before [] before := by
    refine @fills_putMember depth before [] (List.pairwise_append.1 hordered).1
      fun m hm rest hrest => ?_
    exact reads_anyValue (hwhole m (List.mem_append_left _ hm)) (hbefore m hm) hrest
  have hfail (rest : List UInt8) :
      GivesUp (putMember depth name before) (58 :: bytesOf (textL v) ++ rest) := by
    have hvalue := hgive (name, v) (List.mem_append_right _ List.mem_cons_self) hv rest
    exact ((reads_colon _).givesUp hvalue.bind).within _
  rw [List.length_append] at hrounds
  exact givesUp_membersOnto hfills hfail rest (by omega)

/-- **No value that goes too deep is read back.** -/
theorem givesUp_anyValue {v : Json} (hv : v.IsWhole) {depth : Nat} (hdepth : depth < v.nesting)
    (rest : List UInt8) : GivesUp (anyValue depth) (bytesOf (textL v) ++ rest) := by
  induction hv generalizing depth rest with
  | null | bool | int | str => exact absurd hdepth (Nat.not_lt_zero _)
  | @arr items hwhole ih =>
    rw [bytesOf_list]
    unfold anyValue
    refine (reads_blanks (show IsToken 91 by decide) _).givesUp ((reads_peek _).givesUp ?_)
    cases depth with
    | zero => exact givesUp_haltAhead _
    | succ depth =>
      have hsome : ¬∀ v ∈ items, v.nesting ≤ depth := by
        rw [← nestingItems_le, Nat.not_le]
        exact Nat.lt_of_succ_lt_succ hdepth
      have hlength := length_itemsL hwhole rest
      obtain ⟨before, v, later, rfl, hv, hbefore⟩ := exists_first_deep hsome
      have hleft (w : Json) (hw : w ∈ before) : w ∈ before ++ v :: later :=
        List.mem_append_left _ hw
      have hmem : v ∈ before ++ v :: later := List.mem_append_right _ List.mem_cons_self
      refine (reads_forward _ _).givesUp
        ((reads_remaining _).givesUp (GivesUp.map (GivesUp.enclosed _ ?_)))
      refine givesUp_itemsOnto (fun w hw => hwhole w (hleft w hw)) (hwhole v hmem)
        (fun w hw rest hrest => reads_anyValue (hwhole w (hleft w hw)) (hbefore w hw) hrest)
        (fun rest => ih v hmem hv rest) _ ?_
      rw [List.length_append] at hlength
      omega
  | @obj members hordered hwhole ih =>
    rw [bytesOf_object]
    unfold anyValue
    refine (reads_blanks (show IsToken 123 by decide) _).givesUp ((reads_peek _).givesUp ?_)
    cases depth with
    | zero => exact givesUp_haltAhead _
    | succ depth =>
      refine (reads_forward _ _).givesUp
        ((reads_remaining _).givesUp (GivesUp.map (GivesUp.enclosed _ ?_)))
      exact givesUp_putMember hordered hwhole (fun m hm hdeep rest => ih m hm hdeep rest)
        (Nat.lt_of_succ_lt_succ hdepth) _ (Nat.lt_succ_of_lt (length_membersL members rest))

/-- Nor is an object that is wanted as one. -/
theorem givesUp_object {members : Members} (hmembers : (obj members).IsWhole) {depth : Nat}
    (hdepth : depth < (obj members).nesting) (rest : List UInt8) :
    GivesUp (Decoder.members depth) (bytesOf (textL (.obj members)) ++ rest) := by
  cases hmembers with
  | obj hordered hwhole =>
    rw [bytesOf_object]
    refine GivesUp.settled ((reads_firstByte (show IsToken 123 by decide) _).givesUp ?_)
    cases depth with
    | zero => exact givesUp_haltAhead _
    | succ depth =>
      refine (reads_forward _ _).givesUp ((reads_remaining _).givesUp (GivesUp.enclosed _ ?_))
      exact givesUp_putMember hordered hwhole
        (fun m hm hdeep rest => givesUp_anyValue (hwhole m hm) hdeep rest)
        (Nat.lt_of_succ_lt_succ hdepth) _ (Nat.lt_succ_of_lt (length_membersL members rest))

/-! ## Records and whole texts -/

/-- A record is given up at a member that goes too deep, when those before it are read. -/
theorem givesUp_record {title name : String} {fields : List (Decoder.Field σ)} {blank s : σ}
    {finish : σ → α} {depth : Nat} {before later : Members} {field : Decoder.Field σ} {v : Json}
    (hfills : Fills (Decoder.recordMember fields depth) before blank s)
    (hname : Decoder.Field.named? name fields = some field) (hgiven : field.given s = false)
    (hgive : ∀ rest, GivesUp (field.read depth) (bytesOf (textL v) ++ rest)) (rest : List UInt8) :
    GivesUp (Decoder.record title fields blank finish (depth + 1))
      (bytesOf (textL (.obj (before ++ (name, v) :: later))) ++ rest) := by
  have hmember (rest : List UInt8) :
      GivesUp (Decoder.recordMember fields depth name s) (58 :: bytesOf (textL v) ++ rest) := by
    simp only [Decoder.recordMember, hname, hgiven]
    exact GivesUp.within _ ((reads_colon _).givesUp (hgive rest).bind)
  have hlength := length_membersL (before ++ (name, v) :: later) rest
  rw [List.length_append] at hlength
  rw [bytesOf_object]
  refine GivesUp.settled ((reads_firstByte (show IsToken 123 by decide) _).givesUp ?_)
  refine (reads_forward _ _).givesUp ((reads_remaining _).givesUp (GivesUp.bind ?_))
  exact GivesUp.enclosed _ (givesUp_membersOnto hfills hmember _ (by omega)).bind

/-- A value on which the reader gives up is no text of the wanted shape. -/
theorem runText_of_givesUp {shape : Decoder α} {v : Json}
    (h : GivesUp (shape maxDepth) (bytesOf (textL v))) :
    ∃ failure, shape.runText v.text = .error failure ∧ failure.cause = .malformed .tooDeep := by
  obtain ⟨problem, after, hshape, hcause⟩ := h 1 0
  refine ⟨problem.toFailure after, ?_, hcause⟩
  rw [Decoder.runText, Decoder.run, Json.text, encode_ofList, Cursor.start, hshape]

end Intranet.Json
