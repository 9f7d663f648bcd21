import Intranet.Proofs.Graphql.Nesting

/-!
# Documents that nest too deep

A document is refused for its depth exactly when its reader comes to a list or an object that is
opened inside `maxDepth` others. What stands before that place, and how deep it is, does not
matter, nor what follows.

Main results:

* `literal_agree`: readers with different limits read alike where neither comes to its limit;
* `literal_eq_tooDeep`, `arguments_eq_tooDeep`, `skipDirectives_eq_tooDeep`: which values,
  arguments and directives are refused;
* `parse_bounded`: what a document asks for is well formed, and which documents are refused for
  their depth.
-/

namespace Intranet.Graphql

/-! ## Readers without a limit -/

section Limits

variable {α β : Type}

theorem bind_eq_error {x : Except Malformed α} {f : α → Except Malformed β} {e : Malformed} :
    x.bind f = .error e ↔ x = .error e ∨ ∃ a, x = .ok a ∧ f a = .error e := by
  cases x with
  | error e' => simp [Except.bind]
  | ok a => simp [Except.bind]

theorem map_eq_error {x : Except Malformed α} {f : α → β} {e : Malformed} :
    x.map f = .error e ↔ x = .error e := by
  cases x with
  | error e' => simp [Except.map]
  | ok a => simp [Except.map]

variable {x y : Except Malformed α}

/-- Two readings that are the same unless one of them comes to its limit. -/
def Agree (x y : Except Malformed α) : Prop :=
  x = y ∨ x = .error .tooDeep ∨ y = .error .tooDeep

theorem Agree.refl (x : Except Malformed α) : Agree x x := .inl rfl

theorem Agree.bind (h : Agree x y) {f g : α → Except Malformed β} (hf : ∀ a, Agree (f a) (g a)) :
    Agree (x.bind f) (y.bind g) := by
  rcases h with rfl | rfl | rfl
  · cases x with
    | error e => exact .refl _
    | ok a => exact hf a
  · exact .inr (.inl rfl)
  · exact .inr (.inr rfl)

theorem Agree.map (h : Agree x y) (f : α → β) : Agree (x.map f) (y.map f) := by
  rcases h with rfl | rfl | rfl
  · exact .refl _
  · exact .inr (.inl rfl)
  · exact .inr (.inr rfl)

/-- What one of the readers reads the other reads too, or it comes to its limit. -/
theorem Agree.of_ok {a : α} (h : Agree (.ok a) y) : y = .ok a ∨ y = .error .tooDeep := by
  rcases h with h | h | h
  · exact .inl h.symm
  · cases h
  · exact .inr h

variable {p q : Taker α} (hpq : ∀ cs, Agree (p.run cs) (q.run cs))
include hpq

theorem pair_agree (cs : List Char) : Agree ((pair p).run cs) ((pair q).run cs) := by
  rw [pair_run_eq, pair_run_eq]
  apply (Agree.refl _).bind
  intro r
  apply (Agree.refl _).bind
  intro rest
  exact (hpq rest).map _

theorem manyOnto_agree (close : Char) (done : List α) (cs : List Char) :
    Agree (p.manyOnto close done cs) (q.manyOnto close done cs) := by
  fun_induction Taker.manyOnto p close done cs with
  | case1 done cs r he =>
    rw [manyOnto_eq, he]
    exact .refl _
  | case2 done cs he e hr =>
    have h := hpq cs
    rw [hr] at h
    rw [manyOnto_eq, he]
    exact h.bind (f := fun r => q.manyOnto close (r.1 :: done) r.2) fun _ => .refl _
  | case3 done cs he a r hr ih =>
    have h := hpq cs
    rw [hr] at h
    rw [manyOnto_eq q, he]
    rcases h.of_ok with hq | hq
    · show Agree _ ((q.run cs).bind _)
      rw [hq]
      exact ih
    · show Agree _ ((q.run cs).bind _)
      rw [hq]
      exact .inr (.inr rfl)

end Limits

theorem valueRun_agree {p q : Taker Literal} (hpq : ∀ cs, Agree (p.run cs) (q.run cs))
    (cs : List Char) : Agree (valueRun (some p) cs) (valueRun (some q) cs) := by
  cases hs : skipIgnored cs with
  | nil =>
    rw [valueRun_nil hs, valueRun_nil hs]
    exact .refl _
  | cons c rest =>
    by_cases hl : c = '['
    · subst hl
      rw [valueRun_list hs, valueRun_list hs]
      exact (manyOnto_agree hpq _ _ _).map _
    by_cases ho : c = '\x7b'
    · subst ho
      rw [valueRun_object hs, valueRun_object hs]
      exact (manyOnto_agree (pair_agree hpq) _ _ _).map _
    · unfold valueRun
      rw [hs]
      simp only [if_neg hl, if_neg ho]
      exact .refl _

theorem valueRun_agree_none (inner : Option (Taker Literal)) (cs : List Char) :
    Agree (valueRun none cs) (valueRun inner cs) := by
  cases hs : skipIgnored cs with
  | nil =>
    rw [valueRun_nil hs, valueRun_nil hs]
    exact .refl _
  | cons c rest =>
    by_cases hc : c = '[' ∨ c = '\x7b'
    · rw [valueRun_deep hc hs]
      exact .inr (.inl rfl)
    · rw [not_or] at hc
      unfold valueRun
      rw [hs]
      simp only [if_neg hc.1, if_neg hc.2]
      exact .refl _

/-- Readers with different limits read alike where neither comes to its limit. -/
theorem literal_agree (m n : Nat) (cs : List Char) :
    Agree ((literal m).run cs) ((literal n).run cs) := by
  induction m generalizing n cs with
  | zero =>
    cases n with
    | zero => exact .refl _
    | succ n => exact valueRun_agree_none (some (literal n)) cs
  | succ m ih =>
    cases n with
    | zero =>
      rcases valueRun_agree_none (some (literal m)) cs with h | h | h
      · exact .inl h.symm
      · exact .inr (.inr h)
      · exact .inr (.inl h)
    | succ n => exact valueRun_agree (ih n) cs

/-! ## Places that are too deep -/

/-- A value can be read, however deep it is. -/
def ReadsValue (cs rest : List Char) : Prop := ∃ n l, (literal n).run cs = .ok (l, rest)

/-- A name, a colon and a value can be read, however deep the value is. -/
def ReadsMember (cs rest : List Char) : Prop := ∃ n m, (pair (literal n)).run cs = .ok (m, rest)

/-- Arguments can be read up to their end, however deep they are. -/
def ReadsArguments (cs rest : List Char) : Prop :=
  ∃ n args, (pair (literal n)).many ')' cs = .ok (args, rest)

/-- A name and a colon. -/
def Named (cs rest : List Char) : Prop := ∃ key r, name cs = .ok (key, r) ∧ expect ':' r = .ok rest

/-- Some number of items, none of them if need be. -/
inductive Past (step : List Char → List Char → Prop) : List Char → List Char → Prop where
  | none {cs : List Char} : Past step cs cs
  | item {cs mid rest : List Char} (h : step cs mid) (hp : Past step mid rest) : Past step cs rest

/-- A value in which the reader comes to a list or an object that is opened inside so many others
of it. -/
inductive Deep : Nat → List Char → Prop where
  | opening {cs rest : List Char} {c : Char} (h : skipIgnored cs = c :: rest)
    (hc : c = '[' ∨ c = '\x7b') : Deep 0 cs
  | item {n : Nat} {cs rest inside : List Char} (h : skipIgnored cs = '[' :: rest)
    (hp : Past ReadsValue rest inside) (hd : Deep n inside) : Deep (n + 1) cs
  | member {n : Nat} {cs rest inside value : List Char} (h : skipIgnored cs = '\x7b' :: rest)
    (hp : Past ReadsMember rest inside) (hn : Named inside value) (hd : Deep n value) :
    Deep (n + 1) cs

/-- Arguments, behind their opening parenthesis, in which the reader comes to such a value. -/
def DeepArgument (n : Nat) (cs : List Char) : Prop :=
  ∃ inside value, Past ReadsMember cs inside ∧ Named inside value ∧ Deep n value

/-- Directives in which the reader comes to such a value. -/
inductive DeepDirective (n : Nat) : List Char → Prop where
  | here {cs r r' inside : List Char} {w : String} (ha : eat? '@' cs = some r)
    (hn : name r = .ok (w, r')) (hp : eat? '(' r' = some inside) (hd : DeepArgument n inside) :
    DeepDirective n cs
  | bare {cs r r' : List Char} {w : String} (ha : eat? '@' cs = some r)
    (hn : name r = .ok (w, r')) (hp : eat? '(' r' = none) (hd : DeepDirective n r') :
    DeepDirective n cs
  | behind {cs r r' inside rest : List Char} {w : String} (ha : eat? '@' cs = some r)
    (hn : name r = .ok (w, r')) (hp : eat? '(' r' = some inside)
    (hg : ReadsArguments inside rest) (hd : DeepDirective n rest) : DeepDirective n cs

/-- A root field, from its opening brace on, in which the reader comes to such a value: in an
argument or in a directive. -/
inductive DeepField (n : Nat) (cs : List Char) : Prop where
  | argument {f : Option String × String} {r r' inside : List Char}
    (hb : expect '\x7b' cs = .ok r) (hf : fieldName r = .ok (f, r'))
    (hp : eat? '(' r' = some inside) (hd : DeepArgument n inside)
  | directive {f : Option String × String} {args : List (String × Literal)}
    {r r' rest : List Char} (hb : expect '\x7b' cs = .ok r) (hf : fieldName r = .ok (f, r'))
    (ha : fieldArguments r' = .ok (args, rest)) (hd : DeepDirective n rest)

/-- A document in which the reader comes to such a value: in a directive of its operation, or in
its root field. -/
inductive Reaches (n : Nat) (cs : List Char) : Prop where
  | header {word : String} {r r' rest : List Char} (hw : name cs = .ok (word, r))
    (hk : word = "query" ∨ word = "mutation") (hn : skipName r = .ok r')
    (hv : skipVariables r' = .ok rest) (hd : DeepDirective n rest)
  | field {op : Operation} {rest : List Char} (ho : operation cs = .ok (op, rest))
    (hd : DeepField n rest)

/-! ## Values -/

section Items

variable {α : Type} {p : Taker α} {step : List Char → List Char → Prop} {close : Char}

/-- A list is refused for its depth at one of its items, behind some that can be read. -/
theorem past_of_manyOnto (hstep : ∀ {cs rest a}, p.run cs = .ok (a, rest) → step cs rest)
    {done : List α} {cs : List Char} (h : p.manyOnto close done cs = .error .tooDeep) :
    ∃ inside, Past step cs inside ∧ p.run inside = .error .tooDeep := by
  fun_induction Taker.manyOnto p close done cs with
  | case1 => cases h
  | case2 done cs he e hr =>
    cases h
    exact ⟨cs, .none, hr⟩
  | case3 done cs he a r hr ih =>
    obtain ⟨inside, hp, hi⟩ := ih h
    exact ⟨inside, .item (hstep hr) hp, hi⟩

/-- An item that is refused for its depth, behind some that can be read. -/
theorem manyOnto_of_past
    (hstep : ∀ {cs rest}, step cs rest → (∃ a, p.run cs = .ok (a, rest)) ∨
      p.run cs = .error .tooDeep)
    (hclose : ∀ {cs r}, eat? close cs = some r → ∃ e, p.run cs = .error e ∧ e ≠ .tooDeep)
    {cs inside : List Char} (hp : Past step cs inside) (hr : p.run inside = .error .tooDeep)
    (done : List α) : p.manyOnto close done cs = .error .tooDeep := by
  have hdeep : ∀ {cs} (done : List α), p.run cs = .error .tooDeep →
      p.manyOnto close done cs = .error .tooDeep := by
    intro cs done hr
    rw [manyOnto_eq]
    cases he : eat? close cs with
    | none =>
      rw [hr]
      rfl
    | some r =>
      obtain ⟨e, hr', hne⟩ := hclose he
      rw [hr] at hr'
      cases hr'
      exact absurd rfl hne
  induction hp generalizing done with
  | none => exact hdeep done hr
  | @item cs mid rest h hp ih =>
    rcases hstep h with ⟨a, ha⟩ | hcs
    · rw [manyOnto_eq]
      cases he : eat? close cs with
      | none =>
        rw [ha]
        exact ih hr (a :: done)
      | some r =>
        obtain ⟨e, hr', -⟩ := hclose he
        rw [ha] at hr'
        cases hr'
    · exact hdeep done hcs

end Items

theorem name_ne_tooDeep (cs : List Char) : name cs ≠ .error .tooDeep := by
  unfold name
  split
  · simp
  · split <;> simp

theorem expect_ne_tooDeep (c : Char) (cs : List Char) : expect c cs ≠ .error .tooDeep := by
  unfold expect
  split <;> simp

theorem pair_eq_tooDeep {p : Taker Literal} {cs : List Char} :
    (pair p).run cs = .error .tooDeep ↔
      ∃ value, Named cs value ∧ p.run value = .error .tooDeep := by
  rw [pair_run_eq]
  constructor
  · intro h
    rcases bind_eq_error.mp h with h | ⟨r, hn, h⟩
    · exact absurd h (name_ne_tooDeep cs)
    rcases bind_eq_error.mp h with h | ⟨value, hc, h⟩
    · exact absurd h (expect_ne_tooDeep ':' r.2)
    exact ⟨value, ⟨r.1, r.2, hn, hc⟩, map_eq_error.mp h⟩
  · rintro ⟨value, ⟨key, r, hn, hc⟩, h⟩
    apply bind_eq_error.mpr
    refine .inr ⟨(key, r), hn, ?_⟩
    apply bind_eq_error.mpr
    exact .inr ⟨value, hc, map_eq_error.mpr h⟩

/-- A value cannot start with a closing bracket. -/
theorem literal_closing {n : Nat} {cs r : List Char} (h : eat? ']' cs = some r) :
    ∃ e, (literal n).run cs = .error e ∧ e ≠ .tooDeep := by
  have hs := skipIgnored_of_eat? h
  refine ⟨.unexpectedChar ']', ?_, by simp⟩
  cases n with
  | zero =>
    show valueRun none cs = _
    exact valueRun_unexpected (by decide) (by decide) (by decide) hs
  | succ n =>
    show valueRun (some (literal n)) cs = _
    exact valueRun_unexpected (by decide) (by decide) (by decide) hs

/-- A pair cannot start with a character that starts no name. -/
theorem pair_closing {p : Taker Literal} {close : Char} (hclose : isNameStart close = false)
    {cs r : List Char} (h : eat? close cs = some r) :
    ∃ e, (pair p).run cs = .error e ∧ e ≠ .tooDeep := by
  have hname : name cs = .error (.unexpectedChar close) := by
    rw [name_of_skipIgnored (skipIgnored_of_eat? h), if_neg (by simp [hclose])]
  refine ⟨.unexpectedChar close, ?_, by simp⟩
  rw [pair_run_eq, hname]
  rfl

theorem readsValue_or_tooDeep {cs rest : List Char} (h : ReadsValue cs rest) (n : Nat) :
    (∃ l, (literal n).run cs = .ok (l, rest)) ∨ (literal n).run cs = .error .tooDeep := by
  obtain ⟨m, l, hm⟩ := h
  have hagree := literal_agree m n cs
  rw [hm] at hagree
  exact hagree.of_ok.imp_left fun h => ⟨l, h⟩

theorem readsMember_or_tooDeep {cs rest : List Char} (h : ReadsMember cs rest) (n : Nat) :
    (∃ a, (pair (literal n)).run cs = .ok (a, rest)) ∨
      (pair (literal n)).run cs = .error .tooDeep := by
  obtain ⟨m, a, hm⟩ := h
  have hagree := pair_agree (literal_agree m n) cs
  rw [hm] at hagree
  exact hagree.of_ok.imp_left fun h => ⟨a, h⟩

/-- A pair between others is refused for its depth at its value. -/
theorem members_eq_tooDeep {n : Nat} {close : Char} (hclose : isNameStart close = false)
    (ih : ∀ cs, (literal n).run cs = .error .tooDeep ↔ Deep n cs) {cs : List Char} :
    (pair (literal n)).many close cs = .error .tooDeep ↔ DeepArgument n cs := by
  constructor
  · intro h
    have hstep : ∀ {cs rest a}, (pair (literal n)).run cs = .ok (a, rest) → ReadsMember cs rest :=
      fun hr => ⟨n, _, hr⟩
    obtain ⟨inside, hp, hi⟩ := past_of_manyOnto hstep h
    obtain ⟨value, hn, hv⟩ := pair_eq_tooDeep.mp hi
    exact ⟨inside, value, hp, hn, (ih value).mp hv⟩
  · rintro ⟨inside, value, hp, hn, hd⟩
    apply manyOnto_of_past (fun h => readsMember_or_tooDeep h n) (pair_closing hclose) hp
    exact pair_eq_tooDeep.mpr ⟨value, hn, (ih value).mpr hd⟩

theorem items_eq_tooDeep {n : Nat} (ih : ∀ cs, (literal n).run cs = .error .tooDeep ↔ Deep n cs)
    {cs : List Char} : (literal n).many ']' cs = .error .tooDeep ↔
      ∃ inside, Past ReadsValue cs inside ∧ Deep n inside := by
  constructor
  · intro h
    have hstep : ∀ {cs rest a}, (literal n).run cs = .ok (a, rest) → ReadsValue cs rest :=
      fun hr => ⟨n, _, hr⟩
    obtain ⟨inside, hp, hi⟩ := past_of_manyOnto hstep h
    exact ⟨inside, hp, (ih inside).mp hi⟩
  · rintro ⟨inside, hp, hd⟩
    apply manyOnto_of_past (fun h => readsValue_or_tooDeep h n) literal_closing hp
    exact (ih inside).mpr hd

theorem string_ne_tooDeep (cs : List Char) : string cs ≠ .error .tooDeep := by
  have hline : ∀ done cs, stringOnto done cs ≠ .error .tooDeep := by
    intro done cs
    fun_induction stringOnto done cs <;> simp_all
  have hblock : ∀ done cs, blockOnto done cs ≠ .error .tooDeep := by
    intro done cs
    fun_induction blockOnto done cs <;> simp_all
  unfold string
  split
  all_goals
    intro h
    first
    | exact hblock _ _ (map_eq_error.mp h)
    | exact hline _ _ (map_eq_error.mp h)
    | cases h

theorem number_ne_tooDeep (cs : List Char) : number cs ≠ .error .tooDeep := by
  unfold number
  dsimp only
  repeat' split
  all_goals simp

/-- Only a list or an object is refused for its depth: at once, if none may be opened, and else at
something inside it. -/
theorem valueRun_eq_tooDeep {inner : Option (Taker Literal)} {cs : List Char}
    (h : valueRun inner cs = .error .tooDeep) :
    (inner = none ∧ ∃ c rest, skipIgnored cs = c :: rest ∧ (c = '[' ∨ c = '\x7b')) ∨
    (∃ p rest, inner = some p ∧ skipIgnored cs = '[' :: rest ∧
      p.many ']' rest = .error .tooDeep) ∨
    (∃ p rest, inner = some p ∧ skipIgnored cs = '\x7b' :: rest ∧
      (pair p).many '\x7d' rest = .error .tooDeep) := by
  unfold valueRun at h
  split at h
  · cases h
  · next c rest hs =>
    repeat' split at h
    all_goals subst_vars
    · exact .inl ⟨rfl, _, rest, hs, .inl rfl⟩
    · exact .inr (.inl ⟨_, rest, rfl, hs, map_eq_error.mp h⟩)
    · exact .inl ⟨rfl, _, rest, hs, .inr rfl⟩
    · exact .inr (.inr ⟨_, rest, rfl, hs, map_eq_error.mp h⟩)
    · exact absurd (map_eq_error.mp h) (name_ne_tooDeep _)
    · exact absurd (map_eq_error.mp h) (string_ne_tooDeep _)
    · exact absurd (map_eq_error.mp h) (number_ne_tooDeep _)
    · exact absurd (map_eq_error.mp h) (name_ne_tooDeep _)
    · cases h

/-- A reader refuses a value for its depth exactly when it comes to a list or an object that is
opened inside as many others as the reader allows, or more. -/
theorem literal_eq_tooDeep (n : Nat) (cs : List Char) :
    (literal n).run cs = .error .tooDeep ↔ Deep n cs := by
  induction n generalizing cs with
  | zero =>
    change valueRun none cs = _ ↔ _
    constructor
    · intro h
      rcases valueRun_eq_tooDeep h with ⟨-, c, rest, hs, hc⟩ | ⟨p, _, hp, _⟩ | ⟨p, _, hp, _⟩
      · exact .opening hs hc
      · cases hp
      · cases hp
    · rintro ⟨hs, hc⟩
      exact valueRun_deep hc hs
  | succ n ih =>
    change valueRun (some (literal n)) cs = _ ↔ _
    constructor
    · intro h
      rcases valueRun_eq_tooDeep h with ⟨hp, _⟩ | ⟨p, rest, hp, hs, h⟩ | ⟨p, rest, hp, hs, h⟩
      · cases hp
      · cases hp
        obtain ⟨inside, hp, hd⟩ := (items_eq_tooDeep ih).mp h
        exact .item hs hp hd
      · cases hp
        obtain ⟨inside, value, hp, hn, hd⟩ := (members_eq_tooDeep (by decide) ih).mp h
        exact .member hs hp hn hd
    · intro h
      cases h with
      | item hs hp hd =>
        rw [valueRun_list hs]
        exact map_eq_error.mpr ((items_eq_tooDeep ih).mpr ⟨_, hp, hd⟩)
      | member hs hp hn hd =>
        rw [valueRun_object hs]
        exact map_eq_error.mpr ((members_eq_tooDeep (by decide) ih).mpr ⟨_, _, hp, hn, hd⟩)

/-! ## Arguments and directives -/

theorem arguments_eq_tooDeep {cs : List Char} :
    arguments cs = .error .tooDeep ↔ DeepArgument maxDepth cs :=
  members_eq_tooDeep (by decide) (literal_eq_tooDeep maxDepth)

theorem readsArguments_or_tooDeep {cs rest : List Char} (h : ReadsArguments cs rest) :
    (∃ args, arguments cs = .ok (args, rest)) ∨ arguments cs = .error .tooDeep := by
  obtain ⟨n, args, hn⟩ := h
  have hagree := manyOnto_agree (pair_agree (literal_agree n maxDepth)) ')' [] cs
  change Agree ((pair (literal n)).many ')' cs) (arguments cs) at hagree
  rw [hn] at hagree
  exact hagree.of_ok.imp_left fun h => ⟨args, h⟩

/-- Directives are refused for their depth exactly when one of their arguments is too deep. -/
theorem skipDirectives_eq_tooDeep {cs : List Char} :
    skipDirectives cs = .error .tooDeep ↔ DeepDirective maxDepth cs := by
  constructor
  · intro h
    fun_induction skipDirectives cs with
    | case1 => cases h
    | case2 cs r ha e hn =>
      cases h
      exact absurd hn (name_ne_tooDeep r)
    | case3 cs r ha w r' hn hp ih => exact .bare ha hn hp (ih h)
    | case4 cs r ha w r' hn inside hp e hg =>
      cases h
      exact .here ha hn hp (arguments_eq_tooDeep.mp hg)
    | case5 cs r ha w r' hn inside hp args rest hg ih =>
      exact .behind ha hn hp ⟨maxDepth, args, hg⟩ (ih h)
  · intro h
    induction h with
    | here ha hn hp hd =>
      rw [skipDirectives_eq, ha]
      apply bind_eq_error.mpr
      refine .inr ⟨_, hn, ?_⟩
      dsimp only
      rw [hp]
      apply bind_eq_error.mpr
      exact .inl (arguments_eq_tooDeep.mpr hd)
    | bare ha hn hp _ ih =>
      rw [skipDirectives_eq, ha]
      apply bind_eq_error.mpr
      refine .inr ⟨_, hn, ?_⟩
      dsimp only
      rw [hp]
      exact ih
    | behind ha hn hp hg _ ih =>
      rw [skipDirectives_eq, ha]
      apply bind_eq_error.mpr
      refine .inr ⟨_, hn, ?_⟩
      dsimp only
      rw [hp]
      apply bind_eq_error.mpr
      rcases readsArguments_or_tooDeep hg with ⟨args, hargs⟩ | hdeep
      · exact .inr ⟨_, hargs, ih⟩
      · exact .inl hdeep

/-! ## What is passed over -/

theorem skipGroup_ne_tooDeep (g : Group) (depth : Nat) (cs : List Char) :
    skipGroup g depth cs ≠ .error .tooDeep := by
  intro h
  fun_induction skipGroup g depth cs with
  | case1 => cases h
  | case2 depth rest e hs =>
    cases h
    exact string_ne_tooDeep _ hs
  | case3 depth rest s rest' hs ih => exact ih h
  | case4 depth rest _ ih => exact ih h
  | case5 => cases h
  | case6 rest _ _ depth ih => exact ih h
  | case7 depth c rest _ _ _ ih => exact ih h

theorem skipHeader_ne_tooDeep (cs : List Char) : skipHeader cs ≠ .error .tooDeep := by
  intro h
  fun_induction skipHeader cs with
  | case1 | case2 | case8 => cases h
  | case3 cs rest e hg hs =>
    cases h
    exact skipGroup_ne_tooDeep _ _ _ hg
  | case5 cs rest e hs _ _ ht =>
    cases h
    exact string_ne_tooDeep _ ht
  | case4 | case6 | case7 =>
    rename_i ih
    exact ih h

theorem skipDefinitions_ne_tooDeep (cs : List Char) : skipDefinitions cs ≠ .error .tooDeep := by
  intro h
  fun_induction skipDefinitions cs with
  | case1 | case8 | case9 => cases h
  | case2 cs rest e hg hs =>
    cases h
    exact skipGroup_ne_tooDeep _ _ _ hg
  | case4 cs c rest hs _ _ e hn =>
    cases h
    exact name_ne_tooDeep _ hn
  | case5 cs c rest hs _ _ word rest' hn _ e hh =>
    cases h
    exact skipHeader_ne_tooDeep _ hh
  | case6 cs c rest hs _ _ word rest' hn _ inside hh e hg =>
    cases h
    exact skipGroup_ne_tooDeep _ _ _ hg
  | case3 | case7 =>
    rename_i ih
    exact ih h

theorem skipName_ne_tooDeep (cs : List Char) : skipName cs ≠ .error .tooDeep := by
  unfold skipName
  split
  · split
    · intro h
      exact name_ne_tooDeep _ (map_eq_error.mp h)
    · simp
  · simp

theorem skipVariables_ne_tooDeep (cs : List Char) : skipVariables cs ≠ .error .tooDeep := by
  unfold skipVariables
  split
  · exact skipGroup_ne_tooDeep _ _ _
  · simp

theorem skipSelection_ne_tooDeep (cs : List Char) : skipSelection cs ≠ .error .tooDeep := by
  unfold skipSelection
  split
  · exact skipGroup_ne_tooDeep _ _ _
  · simp

theorem fieldName_ne_tooDeep (cs : List Char) : fieldName cs ≠ .error .tooDeep := by
  intro h
  rw [fieldName_eq] at h
  rcases bind_eq_error.mp h with h | ⟨r, -, h⟩
  · exact name_ne_tooDeep cs h
  · cases he : eat? ':' r.2 with
    | none =>
      rw [he] at h
      cases h
    | some rest =>
      rw [he] at h
      exact name_ne_tooDeep rest (map_eq_error.mp h)

/-- The refusal of a part that has to be read is that of the whole. -/
theorem proceed_eq_error {β : Type} {x : Except Malformed β} {k : β → Except Problem Selection}
    {e : Malformed} : proceed x k = .error (.malformed e) ↔
      x = .error e ∨ ∃ b, x = .ok b ∧ k b = .error (.malformed e) := by
  cases x with
  | error e' => simp
  | ok b => simp

theorem finish_ne_tooDeep (s : Selection) (cs : List Char) :
    finish s cs ≠ .error (.malformed .tooDeep) := by
  intro h
  rw [finish_eq] at h
  split at h
  · cases h
  · rcases proceed_eq_error.mp h with h | ⟨rest, -, h⟩
    · exact expect_ne_tooDeep _ _ h
    · rcases proceed_eq_error.mp h with h | ⟨u, -, h⟩
      · exact skipDefinitions_ne_tooDeep rest h
      · cases h

/-! ## Documents -/

theorem afterArguments_eq_tooDeep {s : Selection} {cs : List Char} :
    afterArguments s cs = .error (.malformed .tooDeep) ↔ DeepDirective maxDepth cs := by
  unfold afterArguments
  rw [proceed_eq_error, skipDirectives_eq_tooDeep]
  constructor
  · rintro (h | ⟨rest, -, h⟩)
    · exact h
    · rcases proceed_eq_error.mp h with h | ⟨rest', -, h⟩
      · exact absurd h (skipSelection_ne_tooDeep rest)
      · exact absurd h (finish_ne_tooDeep s rest')
  · exact .inl

theorem fieldArguments_eq_tooDeep {cs : List Char} : fieldArguments cs = .error .tooDeep ↔
    ∃ inside, eat? '(' cs = some inside ∧ DeepArgument maxDepth inside := by
  unfold fieldArguments
  cases he : eat? '(' cs with
  | none => simp
  | some inside =>
    dsimp only
    rw [arguments_eq_tooDeep]
    simp

/-- What a name starts with does not start a fragment. -/
theorem startsFragment_of_fieldName {cs rest : List Char} {f : Option String × String}
    (h : fieldName cs = .ok (f, rest)) : startsFragment (skipIgnored cs) = false := by
  rw [fieldName_eq] at h
  cases hs : skipIgnored cs with
  | nil => rfl
  | cons c r =>
    by_cases hc : c = '.'
    · subst hc
      rw [name_of_skipIgnored hs, if_neg (by decide)] at h
      cases h
    · unfold startsFragment
      split
      · next he =>
        cases he
        exact absurd rfl hc
      · rfl

theorem rootField_eq_tooDeep {op : Operation} {cs : List Char} :
    rootField op cs = .error (.malformed .tooDeep) ↔ DeepField maxDepth cs := by
  have hname : ∀ cs, fieldName (skipIgnored cs) = fieldName cs := by
    intro cs
    rw [fieldName_eq, fieldName_eq, name_skipIgnored]
  rw [rootField_eq]
  constructor
  · intro h
    rcases proceed_eq_error.mp h with h | ⟨r, hb, h⟩
    · exact absurd h (expect_ne_tooDeep _ _)
    split at h
    · cases h
    rcases proceed_eq_error.mp h with h | ⟨⟨f, r'⟩, hf, h⟩
    · exact absurd h (fieldName_ne_tooDeep _)
    rw [hname] at hf
    rcases proceed_eq_error.mp h with h | ⟨⟨args, rest⟩, ha, h⟩
    · obtain ⟨inside, hp, hd⟩ := fieldArguments_eq_tooDeep.mp h
      exact .argument hb hf hp hd
    · exact .directive hb hf ha (afterArguments_eq_tooDeep.mp h)
  · intro h
    cases h with
    | argument hb hf hp hd =>
      rw [hb, proceed_ok, startsFragment_of_fieldName hf, if_neg (by decide), hname, hf,
        proceed_ok]
      exact proceed_eq_error.mpr (.inl (fieldArguments_eq_tooDeep.mpr ⟨_, hp, hd⟩))
    | directive hb hf ha hd =>
      rw [hb, proceed_ok, startsFragment_of_fieldName hf, if_neg (by decide), hname, hf,
        proceed_ok]
      exact proceed_eq_error.mpr (.inr ⟨_, ha, afterArguments_eq_tooDeep.mpr hd⟩)

/-- The header of an operation is refused for its depth at its directives. -/
theorem operationHeader_eq_tooDeep {cs : List Char} : operationHeader cs = .error .tooDeep ↔
    ∃ r rest, skipName cs = .ok r ∧ skipVariables r = .ok rest ∧ DeepDirective maxDepth rest := by
  rw [operationHeader_eq]
  constructor
  · intro h
    rcases bind_eq_error.mp h with h | ⟨r, hn, h⟩
    · exact absurd h (skipName_ne_tooDeep cs)
    rcases bind_eq_error.mp h with h | ⟨rest, hv, h⟩
    · exact absurd h (skipVariables_ne_tooDeep r)
    exact ⟨r, rest, hn, hv, skipDirectives_eq_tooDeep.mp h⟩
  · rintro ⟨r, rest, hn, hv, hd⟩
    apply bind_eq_error.mpr
    refine .inr ⟨r, hn, ?_⟩
    apply bind_eq_error.mpr
    exact .inr ⟨rest, hv, skipDirectives_eq_tooDeep.mpr hd⟩

/-- The header of an operation of the given kind. -/
def headed (op : Operation) (cs : List Char) : Except Problem (Operation × List Char) :=
  ((operationHeader cs).mapError Problem.malformed).bind fun rest => .ok (op, rest)

theorem headed_eq_error {op : Operation} {cs : List Char} {e : Malformed} :
    headed op cs = .error (.malformed e) ↔ operationHeader cs = .error e := by
  unfold headed
  cases operationHeader cs with
  | error e' =>
    constructor
    · intro h
      cases h
      rfl
    · intro h
      cases h
      rfl
  | ok rest =>
    constructor
    · intro h
      cases h
    · intro h
      cases h

theorem operation_of_name {cs rest : List Char} {word : String} (h : name cs = .ok (word, rest)) :
    operation cs = if word = "query" then headed .query rest
      else if word = "mutation" then headed .mutation rest
      else if word = "subscription" then .error (.unsupported .subscription)
      else .error (.malformed (.unexpectedName word)) := by
  have hhead : (skipIgnored cs).head? ≠ some '\x7b' := by
    intro hb
    cases hs : skipIgnored cs with
    | nil =>
      rw [hs] at hb
      cases hb
    | cons c r =>
      rw [hs] at hb
      cases hb
      rw [name_of_skipIgnored hs, if_neg (by decide)] at h
      cases h
  unfold operation headed
  rw [if_neg hhead, name_skipIgnored, h]
  rfl

theorem operation_eq_tooDeep {cs : List Char} :
    operation cs = .error (.malformed .tooDeep) ↔ ∃ word r, name cs = .ok (word, r) ∧
      (word = "query" ∨ word = "mutation") ∧ operationHeader r = .error .tooDeep := by
  cases hn : name cs with
  | error e =>
    constructor
    · intro h
      have he := name_ne_tooDeep cs
      unfold operation at h
      dsimp only at h
      rw [name_skipIgnored, hn] at h
      split at h
      · cases h
      · cases h
        exact absurd hn he
    · rintro ⟨word, r, h, -⟩
      cases h
  | ok w =>
    obtain ⟨word, r⟩ := w
    rw [operation_of_name hn]
    constructor
    · intro h
      refine ⟨word, r, rfl, ?_⟩
      split at h
      · next hq => exact ⟨.inl hq, headed_eq_error.mp h⟩
      · split at h
        · next hm => exact ⟨.inr hm, headed_eq_error.mp h⟩
        · split at h <;> cases h
    · rintro ⟨word', r', h, rfl | rfl, hr⟩
      · cases h
        rw [if_pos rfl]
        exact headed_eq_error.mpr hr
      · cases h
        rw [if_neg (by decide), if_pos rfl]
        exact headed_eq_error.mpr hr

/-- A document is refused for its depth exactly when its reader comes to a value that is too
deep. -/
theorem document_eq_tooDeep {cs : List Char} :
    document cs = .error (.malformed .tooDeep) ↔ Reaches maxDepth cs := by
  have hdocument : document cs = (operation cs).bind fun r => rootField r.1 r.2 := rfl
  rw [hdocument]
  constructor
  · intro h
    cases ho : operation cs with
    | error e =>
      rw [ho] at h
      cases h
      obtain ⟨word, r, hw, hk, h⟩ := operation_eq_tooDeep.mp ho
      obtain ⟨r', rest, hn, hv, hd⟩ := operationHeader_eq_tooDeep.mp h
      exact .header hw hk hn hv hd
    | ok r =>
      rw [ho] at h
      exact .field ho (rootField_eq_tooDeep.mp h)
  · intro h
    cases h with
    | header hw hk hn hv hd =>
      have hheader := operationHeader_eq_tooDeep.mpr ⟨_, _, hn, hv, hd⟩
      rw [operation_eq_tooDeep.mpr ⟨_, _, hw, hk, hheader⟩]
      rfl
    | field ho hd =>
      rw [ho]
      exact rootField_eq_tooDeep.mpr hd

/-- **Every accepted root field is well formed.** Where the variables are scalars, the field of a
document, its alias, its arguments and the keys of their values have names of the language, and no
more than `maxDepth` lists and objects are open at once in a value. A document is refused for its
depth, whatever its variables are, exactly when its reader comes to a list or an object opened
inside that many others, in an argument or in a directive. -/
theorem parse_bounded (text : String) (given : Members) :
    ((∀ m ∈ given, m.2.nesting = 0) → ∀ r, parse text given = .ok r → r.WellFormed) ∧
    (parse text given = .error (.malformed .tooDeep) ↔ Reaches maxDepth text.toList) := by
  unfold parse
  constructor
  · intro hg r h
    obtain ⟨s, hs, rfl⟩ := eq_ok_of_map h
    exact document_wellFormed hg hs
  · rw [← document_eq_tooDeep]
    cases document text.toList with
    | error e => simp [Except.map]
    | ok s => simp [Except.map]

/-- Brackets behind each other are opened inside each other. -/
theorem deep_brackets (n : Nat) (rest : List Char) :
    Deep n (List.replicate (n + 1) '[' ++ rest) := by
  induction n with
  | zero => exact .opening rfl (.inl rfl)
  | succ n ih => exact .item rfl .none ih

/-- An object in a list that is read, under an alias and with a variable in it; and brackets of
which the last one is opened inside as many others as are allowed. -/
theorem parse_bounded_brackets :
    (∃ r, parse "\x7b a: f(x: [\x7b k: $v \x7d]) \x7d" [("v", .int 1)] = .ok r ∧ r.WellFormed) ∧
    parse (String.ofList ("\x7b f(x:".toList ++ List.replicate (maxDepth + 1) '[')) [] =
      .error (.malformed .tooDeep) := by
  constructor
  · have hok : (parse "\x7b a: f(x: [\x7b k: $v \x7d]) \x7d" [("v", .int 1)]).isOk = true := by
      decide +kernel
    cases hp : parse "\x7b a: f(x: [\x7b k: $v \x7d]) \x7d" [("v", .int 1)] with
    | error e =>
      rw [hp] at hok
      cases hok
    | ok r =>
      refine ⟨r, rfl, (parse_bounded _ _).1 ?_ r hp⟩
      intro m hm
      rw [List.mem_singleton] at hm
      rw [hm]
      rfl
  · apply (parse_bounded _ _).2.mpr
    rw [String.toList_ofList]
    have hoperation : operation ("\x7b f(x:".toList ++ List.replicate (maxDepth + 1) '[') =
        .ok (.query, "\x7b f(x:".toList ++ List.replicate (maxDepth + 1) '[') := rfl
    have hname : fieldName (" f(x:".toList ++ List.replicate (maxDepth + 1) '[') =
        .ok ((none, "f"), "(x:".toList ++ List.replicate (maxDepth + 1) '[') := rfl
    have hdeep : Deep maxDepth (List.replicate (maxDepth + 1) '[') := by
      simpa using deep_brackets maxDepth []
    exact .field hoperation (.argument rfl hname rfl ⟨_, _, .none, ⟨"x", _, rfl, rfl⟩, hdeep⟩)

end Intranet.Graphql
