import Intranet.Proofs.Graphql.Reading

/-!
# Texts read in two pieces

A text is cut where a comment or a line break may stand, and the readers are asked what the first
piece leaves for the second. Three things can happen. Outside strings and skipped groups it does
not matter what blanks and comments the second piece starts with. In a string, only a quote can
help. In a skipped group, all that is remembered of the first piece is the group, how deep it is
and what comes after it.

Main results:

* `Alike.comment`: a comment is like the end of its line;
* `Settled`: what a first piece leaves for the second;
* `name_settles`, `number_settled`, `string_settled`: the tokens.
-/

namespace Intranet.Graphql

/-! ## Where a text may be cut -/

/-- What may follow a cut: nothing, the end of a line or a comment. -/
def Edge (z : List Char) : Prop := z = [] ∨ ∃ rest, z = '\n' :: rest ∨ z = '#' :: rest

theorem Edge.nil : Edge [] := Or.inl rfl

theorem Edge.line (b : List Char) : Edge ('\n' :: b) := Or.inr ⟨b, Or.inl rfl⟩

theorem Edge.comment (b : List Char) : Edge ('#' :: b) := Or.inr ⟨b, Or.inr rfl⟩

/-- No character that belongs to a token stands first. -/
theorem Edge.head_ne {z : List Char} {c : Char} (hz : Edge z) (hn : c ≠ '\n') (hc : c ≠ '#') :
    z.head? ≠ some c := by
  rcases hz with rfl | ⟨rest, rfl | rfl⟩
  · simp
  · simpa using hn.symm
  · simpa using hc.symm

/-- Two continuations of which the same is left, whether a comment is open before them or not. -/
structure Alike (x y : List Char) : Prop where
  left : Edge x
  right : Edge y
  same : ∀ open_, skipFrom open_ x = skipFrom open_ y

theorem Alike.comment {c : List Char} (hc : '\n' ∉ c) (b : List Char) :
    Alike ('#' :: (c ++ '\n' :: b)) ('\n' :: b) := by
  refine ⟨Edge.comment _, Edge.line _, fun open_ => ?_⟩
  rw [skipFrom_line]
  cases open_ with
  | true => rw [skipFrom, if_neg (by decide), skipFrom_comment hc]
  | false => rw [skipFrom, if_neg (by decide), if_pos rfl, skipFrom_comment hc]

/-- A comment on a line of its own does not count after a line break. -/
theorem Alike.line {c : List Char} (hc : '\n' ∉ c) (b : List Char) :
    Alike ('\n' :: '#' :: (c ++ '\n' :: b)) ('\n' :: b) := by
  refine ⟨Edge.line _, Edge.line _, fun open_ => ?_⟩
  rw [skipFrom_line, skipFrom_line, skipFrom, if_neg (by decide), if_pos rfl,
    skipFrom_comment hc]

theorem skipFrom_append_alike {open_ : Bool} {p x y : List Char} (h : skipFrom open_ p = [])
    (hxy : Alike x y) : skipFrom open_ (p ++ x) = skipFrom open_ (p ++ y) := by
  induction p generalizing open_ with
  | nil => exact hxy.same open_
  | cons d p ih =>
    cases open_ with
    | true =>
      simp only [List.cons_append, skipFrom] at h ⊢
      by_cases hd : d = '\n'
      · rw [if_pos hd] at h
        rw [if_pos hd, if_pos hd]
        exact ih h
      · rw [if_neg hd] at h
        rw [if_neg hd, if_neg hd]
        exact ih h
    | false =>
      simp only [List.cons_append, skipFrom] at h ⊢
      by_cases hi : isIgnored d
      · rw [if_pos hi] at h
        rw [if_pos hi, if_pos hi]
        exact ih h
      · rw [if_neg hi] at h
        rw [if_neg hi, if_neg hi]
        by_cases hs : d = '#'
        · rw [if_pos hs] at h
          rw [if_pos hs, if_pos hs]
          exact ih h
        · rw [if_neg hs] at h
          cases h

/-! ## Settled readers -/

/-- No skipped group is open. -/
def Outside (r : Except Problem Selection) : Prop :=
  ∀ g d, r ≠ .error (.malformed (.openGroup g d))

@[simp] theorem outside_ok (s : Selection) : Outside (.ok s) := by
  intro g d h
  cases h

@[simp] theorem outside_unsupported (u : Unsupported) : Outside (.error (.unsupported u)) := by
  intro g d h
  cases h

@[simp] theorem outside_malformed (m : Malformed) :
    Outside (.error (.malformed m)) ↔ ∀ g d, m ≠ .openGroup g d := by
  simp [Outside]

/-- What reading a first piece leaves for the second. -/
inductive Settled (F : List Char → Except Problem Selection) (p : List Char) : Prop where
  /-- Blanks and comments in front of the second piece do not count. -/
  | loose (same : ∀ x y, Alike x y → F (p ++ x) = F (p ++ y)) (out : Outside (F p))
  /-- The first piece ends in a string, and only a quote can help. -/
  | inString (isOpen : F p = .error (.malformed .openString))
      (stuck : ∀ b, '"' ∉ b → ∃ e, F (p ++ '\n' :: b) = .error e)
  /-- The first piece ends in a skipped group. -/
  | inGroup (g : Group) (depth : Nat) (s : Selection)
      (next : ∀ z, Edge z → F (p ++ z) = passing g depth s z)

namespace Settled

variable {F G : List Char → Except Problem Selection} {p q : List Char}

/-- A reader that moves on to a settled place. -/
theorem step (h : ∀ z, Edge z → F (p ++ z) = G (q ++ z)) (hq : Settled G q) : Settled F p := by
  have h0 : F p = G q := by
    have := h [] Edge.nil
    rwa [List.append_nil, List.append_nil] at this
  cases hq with
  | loose same out =>
    refine .loose (fun x y hxy => ?_) (h0 ▸ out)
    rw [h x hxy.left, h y hxy.right, same x y hxy]
  | inString isOpen stuck =>
    refine .inString (h0 ▸ isOpen) fun b hb => ?_
    rw [h _ (Edge.line b)]
    exact stuck b hb
  | inGroup g depth s next =>
    refine .inGroup g depth s fun z hz => ?_
    rw [h z hz, next z hz]

/-- A reader that stops before the cut. -/
theorem stop {r : Except Problem Selection} (h : ∀ z, Edge z → F (p ++ z) = r) (hr : Outside r) :
    Settled F p := by
  refine .loose (fun x y hxy => ?_) ?_
  · rw [h x hxy.left, h y hxy.right]
  · have := h [] Edge.nil
    rw [List.append_nil] at this
    rwa [this]

/-- A reader that passes over blanks first, at a place where only those are left. -/
theorem blank (hF : ∀ cs, F cs = F (skipIgnored cs)) (hp : skipIgnored p = [])
    (h0 : Outside (F [])) : Settled F p := by
  refine .loose (fun x y hxy => ?_) ?_
  · rw [hF (p ++ x), hF (p ++ y)]
    exact congrArg F (skipFrom_append_alike hp hxy)
  · rwa [hF p, hp]

end Settled

/-! ## Words and punctuation -/

section Runs

variable {t : Char → Bool} {z : List Char}

/-- A run of characters that may not hold a line break or a comment ends at the cut. -/
theorem takeWhile_append_edge (hn : t '\n' = false) (hc : t '#' = false) (hz : Edge z)
    (p : List Char) : (p ++ z).takeWhile t = p.takeWhile t := by
  induction p with
  | nil => rcases hz with rfl | ⟨rest, rfl | rfl⟩ <;> simp [hn, hc]
  | cons c p ih => simp only [List.cons_append, List.takeWhile_cons, ih]

theorem dropWhile_append_edge (hn : t '\n' = false) (hc : t '#' = false) (hz : Edge z)
    (p : List Char) : (p ++ z).dropWhile t = p.dropWhile t ++ z := by
  induction p with
  | nil => rcases hz with rfl | ⟨rest, rfl | rfl⟩ <;> simp [hn, hc]
  | cons c p ih =>
    by_cases h : t c
    · rw [List.cons_append, List.dropWhile_cons_of_pos h, List.dropWhile_cons_of_pos h, ih]
    · rw [List.cons_append, List.dropWhile_cons_of_neg h, List.dropWhile_cons_of_neg h]
      rfl

end Runs

/-- A reader of something that has to be there: it passes over blanks first, and at the end of the
text it fails. -/
structure Settles {α : Type} (R : List Char → Except Malformed (α × List Char)) : Prop where
  skips : ∀ cs, R (skipIgnored cs) = R cs
  wants : ∃ e, R [] = .error e ∧ ∀ g d, e ≠ .openGroup g d
  settles : ∀ (k : α → List Char → Except Problem Selection) (p : List Char),
    (∀ a q, q.length < p.length → Settled (k a) q) →
      Settled (fun cs => proceed (R cs) fun r => k r.1 r.2) p

theorem name_settles : Settles name where
  skips := name_skipIgnored
  wants := ⟨.unexpectedEnd, rfl, by simp⟩
  settles k p hk := by
    cases hs : skipIgnored p with
    | nil =>
      exact Settled.blank (fun cs => by rw [name_skipIgnored]) hs (by simp [name])
    | cons c rest =>
      by_cases hc : isNameStart c
      · refine Settled.step (fun z hz => ?_)
          (hk (String.ofList (c :: rest.takeWhile isNameChar)) (rest.dropWhile isNameChar) ?_)
        · rw [name_of_skipIgnored (skipIgnored_append hs z), if_pos hc,
            takeWhile_append_edge rfl rfl hz, dropWhile_append_edge rfl rfl hz]
          rfl
        · have := (rest.dropWhile_sublist isNameChar).length_le
          have := length_of_skipIgnored hs
          omega
      · refine Settled.stop (r := .error (.malformed (.unexpectedChar c))) (fun z hz => ?_)
          (by simp)
        rw [name_of_skipIgnored (skipIgnored_append hs z), if_neg hc]
        rfl

/-- Punctuation that has to come next. -/
theorem expect_settled (c : Char) {k : List Char → Except Problem Selection} {p : List Char}
    (hk : ∀ q, q.length < p.length → Settled k q) :
    Settled (fun cs => proceed (expect c cs) k) p := by
  cases hs : skipIgnored p with
  | nil => exact Settled.blank (fun cs => by rw [expect_skipIgnored]) hs (by simp)
  | cons d rest =>
    by_cases hd : d = c
    · refine Settled.step (fun z hz => ?_) (hk rest (length_of_skipIgnored hs))
      rw [expect_of_skipIgnored (skipIgnored_append hs z), if_pos hd]
      rfl
    · refine Settled.stop (r := .error (.malformed (.expected c (some d)))) (fun z hz => ?_)
        (by simp)
      rw [expect_of_skipIgnored (skipIgnored_append hs z), if_neg hd]
      rfl

/-- Punctuation that may come next, or else something that passes over blanks. -/
theorem eat_settled (c : Char) {F G H : List Char → Except Problem Selection} {p : List Char}
    (hF : ∀ cs, F cs = (eat? c cs).elim (H (skipIgnored cs)) G)
    (h0 : Outside (H [])) (hG : ∀ q, q.length < p.length → Settled G q)
    (hH : ∀ q, q.length ≤ p.length → Settled H q) : Settled F p := by
  cases hs : skipIgnored p with
  | nil =>
    refine Settled.blank (fun cs => ?_) hs (by rw [hF]; exact h0)
    rw [hF cs, hF (skipIgnored cs), eat?_skipIgnored, skipIgnored_idem]
  | cons d rest =>
    by_cases hd : d = c
    · refine Settled.step (fun z hz => ?_) (hG rest (length_of_skipIgnored hs))
      rw [hF, eat?_of_skipIgnored (skipIgnored_append hs z), if_pos hd]
      rfl
    · refine Settled.step (fun z hz => ?_) (hH (d :: rest) (hs ▸ skipIgnored_length_le p))
      rw [hF, eat?_of_skipIgnored (skipIgnored_append hs z), if_neg hd, skipIgnored_append hs z]
      rfl

/-! ## Numbers and strings -/

theorem number_append {z : List Char} (hz : Edge z) (p : List Char) :
    number (p ++ z) = (number p).map fun r => (r.1, r.2 ++ z) := by
  unfold number
  rw [takeWhile_append_edge rfl rfl hz, dropWhile_append_edge rfl rfl hz]
  dsimp only
  split <;> rfl

theorem number_settled {k : Number → List Char → Except Problem Selection} {c : Char}
    {p : List Char} (hc : isNumberChar c = true)
    (hk : ∀ n q, q.length < (c :: p).length → Settled (k n) q) :
    Settled (fun cs => proceed (number cs) fun r => k r.1 r.2) (c :: p) := by
  cases hr : number (c :: p) with
  | error e =>
    refine Settled.stop (r := .error (.malformed e)) (fun z hz => ?_) ?_
    · rw [number_append hz, hr]
      rfl
    · unfold number at hr
      dsimp only at hr
      split at hr
      · cases hr
      · cases hr
        simp
  | ok r =>
    refine Settled.step (fun z hz => ?_) (hk r.1 r.2 (number_shorter hc hr))
    rw [number_append hz, hr]
    rfl

/-- A character that is no digit spoils a hexadecimal number. -/
theorem natL?_of_mem {x : Char} {cs : List Char} (hx : Hex.value? x = none) (h : x ∈ cs) :
    Hex.natL? cs = none := by
  have fold : ∀ (cs : List Char) (n : Nat), x ∈ cs →
      cs.foldlM (fun n c => (Hex.value? c).map (n * 16 + ·)) n = none := by
    intro cs
    induction cs with
    | nil => intro n h; cases h
    | cons c cs ih =>
      intro n h
      rw [List.foldlM_cons]
      rcases List.mem_cons.mp h with rfl | h
      · rw [hx]
        rfl
      · cases Hex.value? c with
        | none => rfl
        | some v => exact ih _ h
  cases cs with
  | nil => cases h
  | cons c cs => exact fold (c :: cs) 0 h

/-- A code point does not reach over the cut. -/
theorem codePoint?_of_mem {a b c d x : Char} (hx : Hex.value? x = none) (hp : x ≠ '+')
    (h : x ∈ [a, b, c, d]) : codePoint? a b c d = none := by
  unfold codePoint?
  by_cases ha : a = '+'
  · rw [if_pos ha, natL?_of_mem hx]
    · rfl
    · rcases List.mem_cons.mp h with rfl | h
      · exact absurd ha hp
      · exact h
  · rw [if_neg ha, natL?_of_mem hx h]
    rfl

theorem codePoint?_append {p z : List Char} (hz : Edge z)
    (hp : ∀ a b c d rest, p ≠ a :: b :: c :: d :: rest) {a b c d : Char} {rest : List Char}
    (h : p ++ z = a :: b :: c :: d :: rest) : codePoint? a b c d = none := by
  have hmem : ∀ x w, z = x :: w → x ∈ [a, b, c, d] := by
    rintro x w rfl
    match p with
    | [] | [_] | [_, _] | [_, _, _] =>
      simp only [List.nil_append, List.cons_append, List.cons.injEq] at h
      simp [h]
    | _ :: _ :: _ :: _ :: _ => exact absurd rfl (hp _ _ _ _ _)
  rcases hz with rfl | ⟨w, rfl | rfl⟩
  · exact absurd (by rwa [List.append_nil] at h) (hp a b c d rest)
  · exact codePoint?_of_mem (by decide) (by decide) (hmem _ _ rfl)
  · exact codePoint?_of_mem (by decide) (by decide) (hmem _ _ rfl)

theorem stringOnto_settled {k : List Char → List Char → Except Problem Selection}
    (done p : List Char) (hk : ∀ s q, q.length ≤ p.length → Settled (k s) q) :
    Settled (fun cs => proceed (stringOnto done cs) fun r => k r.1 r.2) p := by
  fun_induction stringOnto done p with
  | case1 done =>
    refine .inString rfl fun b _ => ⟨.malformed .brokenString, ?_⟩
    rw [List.nil_append, stringOnto_line]
    rfl
  | case2 done =>
    refine .inString rfl fun b _ => ⟨.malformed (.badEscape '\n'), ?_⟩
    rw [List.singleton_append, stringOnto_badEscape (by decide) (by decide)]
    rfl
  | case3 done a b c d rest x hx ih =>
    refine Settled.step (fun z hz => ?_) (ih fun s q hq => hk s q ?_)
    · simp only [List.cons_append]
      rw [stringOnto_codePoint hx]
    · simp only [List.length_cons]
      omega
  | case4 done a b c d rest hx =>
    refine Settled.stop (r := .error (.malformed .badCodePoint)) (fun z hz => ?_) (by simp)
    simp only [List.cons_append]
    rw [stringOnto_badCodePoint fun a' b' c' d' rest' h => ?_]
    · rfl
    · cases h
      exact hx
  | case5 done rest hp =>
    refine Settled.stop (r := .error (.malformed .badCodePoint)) (fun z hz => ?_) (by simp)
    simp only [List.cons_append]
    rw [stringOnto_badCodePoint fun a b c d r h => ?_]
    · rfl
    · exact codePoint?_append hz (fun a b c d r h => hp a b c d r rfl h) h
  | case6 done e rest hp he x hx ih =>
    refine Settled.step (fun z hz => ?_) (ih fun s q hq => hk s q ?_)
    · simp only [List.cons_append]
      rw [stringOnto_escape he hx]
    · simp only [List.length_cons]
      omega
  | case7 done e rest hp he hx =>
    refine Settled.stop (r := .error (.malformed (.badEscape e))) (fun z hz => ?_) (by simp)
    simp only [List.cons_append]
    rw [stringOnto_badEscape he hx]
    rfl
  | case8 done rest =>
    refine Settled.step (fun z hz => ?_) (hk done.reverse rest (by simp))
    rw [List.cons_append, stringOnto_quote]
    rfl
  | case9 done rest =>
    refine Settled.stop (r := .error (.malformed .brokenString)) (fun z hz => ?_) (by simp)
    rw [List.cons_append, stringOnto_line]
    rfl
  | case10 done c rest hb _ hb' hq hn ih =>
    have hc : c ≠ '\\' := by
      rintro rfl
      cases rest with
      | nil => exact hb rfl rfl
      | cons e rest => exact hb' e rest rfl rfl
    refine Settled.step (fun z hz => ?_) (ih fun s q hq => hk s q ?_)
    · rw [List.cons_append, stringOnto_plain hc hq hn]
    · simp only [List.length_cons]
      omega

/-- Without a quote a block string does not end. -/
theorem blockOnto_of_not_mem {cs : List Char} (h : '"' ∉ cs) (done : List Char) :
    blockOnto done cs = .error .openString := by
  induction cs generalizing done with
  | nil => rfl
  | cons c cs ih =>
    rw [blockOnto_cons]
    · exact ih (fun hc => h (List.mem_cons_of_mem c hc)) (c :: done)
    · rintro rest hq
      cases hq
      exact h List.mem_cons_self

theorem blockOnto_settled {k : List Char → List Char → Except Problem Selection}
    (done p : List Char) (hk : ∀ s q, q.length ≤ p.length → Settled (k s) q) :
    Settled (fun cs => proceed (blockOnto done cs) fun r => k r.1 r.2) p := by
  fun_induction blockOnto done p with
  | case1 done =>
    refine .inString rfl fun b hb => ⟨.malformed .openString, ?_⟩
    rw [List.nil_append, blockOnto_of_not_mem]
    · rfl
    · simpa using hb
  | case2 done rest =>
    refine Settled.step (fun z hz => ?_)
      (hk done.reverse rest (by simp only [List.length_cons]; omega))
    simp only [List.cons_append]
    rw [blockOnto_close]
    rfl
  | case3 done c rest hp ih =>
    refine Settled.step (fun z hz => ?_) (ih fun s q hq => hk s q ?_)
    · rw [List.cons_append, blockOnto_cons]
      intro r hr
      have hq := hz.head_ne (c := '"') (by decide) (by decide)
      rcases rest with _ | ⟨d, _ | ⟨e, rest⟩⟩
      · cases hr
        exact hq rfl
      · cases hr
        exact hq rfl
      · cases hr
        exact hp rest rfl rfl
    · simp only [List.length_cons]
      omega

theorem string_settled {k : String → List Char → Except Problem Selection} {p : List Char}
    (hk : ∀ s q, q.length < ('"' :: p).length → Settled (k s) q) :
    Settled (fun cs => proceed (string cs) fun r => k r.1 r.2) ('"' :: p) := by
  by_cases hb : ∃ rest, p = '"' :: '"' :: rest
  · obtain ⟨rest, rfl⟩ := hb
    refine Settled.step (fun z hz => ?_)
      (blockOnto_settled (k := fun s => k (String.ofList s)) [] rest
        fun s q hq => hk _ q ?_)
    · simp only [List.cons_append]
      rw [string_block, proceed_map]
    · simp only [List.length_cons]
      omega
  · refine Settled.step (fun z hz => ?_)
      (stringOnto_settled (k := fun s => k (String.ofList s)) [] p
        fun s q hq => hk _ q ?_)
    · rw [List.cons_append, string_plain, proceed_map]
      intro r hr
      have hq := hz.head_ne (c := '"') (by decide) (by decide)
      rcases p with _ | ⟨d, _ | ⟨e, p⟩⟩
      · exact hq (by rw [← List.nil_append z, hr]; rfl)
      · cases hr
        exact hq rfl
      · cases hr
        exact hb ⟨p, rfl⟩
    · simp only [List.length_cons]
      omega

end Intranet.Graphql
