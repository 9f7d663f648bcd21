import Intranet.Proofs.CookiePairs
import Intranet.Proofs.Digits
import Intranet.Proofs.Settings
import Mathlib.Data.List.Forall2

/-!
# Replicas

What the entries of the list of replicas name, and which of them can be used. The check refuses a
list only where the port of an entry is no number: an entry without a host, with the port zero or
with the bare address `fe80::1` passes, though nothing can be reached under what is read.

* `Names`, `endpoint_eq_ok_iff` — the endpoint that an entry names;
* `replicaEndpoints_eq_ok_iff` — the endpoints of a list;
* `isUsable_iff_isProper` — which entries name an endpoint that can be used;
* `replicas_usable_iff` — which lists that pass the check can be used.
-/

namespace Intranet.Settings

/-! ## Entries -/

/-- The endpoint that an entry names: a host without colons, with the port that holds where none is
given, or what stands before the last colon and a port in decimal digits, which may have a plus
sign. -/
inductive Names (defaultPort : UInt16) : List Char → Endpoint → Prop
  | host {host : List Char} : ':' ∉ host → Names defaultPort host ⟨String.ofList host, defaultPort⟩
  | both {host sign digits : List Char} {port : UInt16} : sign = [] ∨ sign = ['+'] → digits ≠ [] →
    (∀ c ∈ digits, Decimal.isDigit c = true) → Decimal.natOnto 0 digits = port.toNat →
    Names defaultPort (host ++ ':' :: (sign ++ digits)) ⟨String.ofList host, port⟩

theorem splitAtLastColon?_append (before : List Char) {after : List Char} (hafter : ':' ∉ after) :
    splitAtLastColon? (before ++ ':' :: after) = some (before, after) := by
  have hreverse :
      (before ++ ':' :: after).reverse = after.reverse ++ ':' :: before.reverse := by simp
  rw [splitAtLastColon?, hreverse, Http.span_at (by simpa using hafter)]
  simp

theorem splitAtLastColon?_of_not_mem {cs : List Char} (h : ':' ∉ cs) :
    splitAtLastColon? cs = none := by
  have hall : ∀ c ∈ cs.reverse, decide (c ≠ ':') = true := by
    intro c hc
    exact decide_eq_true fun hcolon => h (hcolon ▸ List.mem_reverse.1 hc)
  rw [splitAtLastColon?, List.span_eq_takeWhile_dropWhile, List.dropWhile_eq_nil_iff.2 hall]

theorem exists_last_colon {cs : List Char} (h : ':' ∈ cs) :
    ∃ before after, cs = before ++ ':' :: after ∧ ':' ∉ after := by
  obtain ⟨after, before, hcs, hafter⟩ := List.eq_append_cons_of_mem (List.mem_reverse.2 h)
  refine ⟨before.reverse, after.reverse, ?_, by simpa using hafter⟩
  rw [← List.reverse_reverse cs, hcs]
  simp

theorem colon_not_mem_number {sign digits : List Char} (hsign : sign = [] ∨ sign = ['+'])
    (hdigits : ∀ c ∈ digits, Decimal.isDigit c = true) : ':' ∉ sign ++ digits := by
  intro hmem
  rcases List.mem_append.1 hmem with hmem | hmem
  · rcases hsign with rfl | rfl <;> simp at hmem
  · have hcolon := hdigits ':' hmem
    revert hcolon
    decide

/-- An entry is read as what it names. -/
theorem endpoint_eq_ok_iff {defaultPort : UInt16} {entry : List Char} {e : Endpoint} :
    endpoint defaultPort entry = .ok e ↔ Names defaultPort entry e := by
  constructor
  · intro h
    by_cases hcolon : ':' ∈ entry
    · obtain ⟨host, port, rfl, hport⟩ := exists_last_colon hcolon
      rw [endpoint, splitAtLastColon?_append host hport] at h
      cases hread : Decimal.bounded 65535 port with
      | error reason => simp [hread] at h
      | ok n =>
        simp only [hread, Except.ok.injEq] at h
        subst h
        obtain ⟨digits, hform, hne, hdigits, hvalue, hle⟩ := Decimal.bounded_eq_ok_iff.1 hread
        have hn : (UInt16.ofNat n).toNat = n := UInt16.toNat_ofNat_of_lt' (Nat.lt_succ_of_le hle)
        rcases hform with rfl | rfl
        · exact Names.both (.inl rfl) hne hdigits (hvalue.trans hn.symm)
        · exact Names.both (.inr rfl) hne hdigits (hvalue.trans hn.symm)
    · rw [endpoint, splitAtLastColon?_of_not_mem hcolon, Except.ok.injEq] at h
      subst h
      exact Names.host hcolon
  · intro h
    cases h with
    | host hcolon => rw [endpoint, splitAtLastColon?_of_not_mem hcolon]
    | @both host sign digits port hsign hne hdigits hvalue =>
      have hread : Decimal.bounded 65535 (sign ++ digits) = .ok port.toNat := by
        refine Decimal.bounded_eq_ok_iff.2 ⟨digits, ?_, hne, hdigits, hvalue, ?_⟩
        · rcases hsign with rfl | rfl
          · exact .inl rfl
          · exact .inr rfl
        · exact Nat.le_of_lt_succ port.toNat_lt
      rw [endpoint, splitAtLastColon?_append host (colon_not_mem_number hsign hdigits)]
      simp only [hread, UInt16.ofNat_toNat]

/-! ## Lists -/

/-- The entries that are not blank, without the blanks around them. -/
def Database.entries (d : Database) : List (List Char) :=
  (d.replicas.map fun r => Text.trimL r.toList).filter (!·.isEmpty)

theorem mapM_eq_ok_iff {ε α β : Type} {f : α → Except ε β} {as : List α} {bs : List β} :
    as.mapM f = .ok bs ↔ List.Forall₂ (fun a b => f a = .ok b) as bs := by
  constructor
  · induction as generalizing bs with
    | nil =>
      intro h
      cases h
      exact .nil
    | cons a as ih =>
      intro h
      rw [List.mapM_cons] at h
      cases ha : f a with
      | error reason => simp [ha, bind, Except.bind] at h
      | ok b =>
        cases has : as.mapM f with
        | error reason => simp [ha, has, bind, Except.bind] at h
        | ok rest =>
          simp only [ha, has, bind, Except.bind, pure, Except.pure, Except.ok.injEq] at h
          subst h
          exact .cons ha (ih has)
  · intro h
    induction h with
    | nil => rfl
    | cons ha _ ih =>
      rw [List.mapM_cons, ha, ih]
      rfl

/-- A list is read entry by entry. -/
theorem replicaEndpoints_eq_ok_iff {d : Database} {es : List Endpoint} :
    d.replicaEndpoints = .ok es ↔ List.Forall₂ (Names d.port) d.entries es := by
  rw [Database.replicaEndpoints, mapM_eq_ok_iff]
  simp only [endpoint_eq_ok_iff]
  rfl

/-- The list of settings that pass the check is read. -/
theorem exists_replicaEndpoints_of_check {s : Settings} (h : s.check = .ok ()) :
    ∃ es, s.database.replicaEndpoints = .ok es := by
  obtain ⟨-, h⟩ := of_refuseIf h
  obtain ⟨-, h⟩ := of_refuseIf h
  obtain ⟨-, h⟩ := of_refuseIf h
  obtain ⟨-, h⟩ := of_refuseIf h
  obtain ⟨-, h⟩ := of_refuseIf h
  obtain ⟨-, h⟩ := of_refuseIf h
  cases hes : s.database.replicaEndpoints with
  | ok es => exact ⟨es, rfl⟩
  | error reason =>
    rw [hes] at h
    cases h

/-! ## What can be used -/

/-- Every colon stands between an opening bracket and the closing one after it. -/
def colonsEnclosed (inside : Bool) : List Char → Bool
  | [] => true
  | '[' :: rest => colonsEnclosed (rest.contains ']') rest
  | ']' :: rest => colonsEnclosed false rest
  | c :: rest => (inside || c ≠ ':') && colonsEnclosed inside rest

theorem colonsEnclosed_of_not_mem {cs : List Char} (h : ':' ∉ cs) (inside : Bool) :
    colonsEnclosed inside cs = true := by
  fun_induction colonsEnclosed inside cs with
  | case1 => rfl
  | case2 inside rest ih => exact ih (List.not_mem_of_not_mem_cons h)
  | case3 inside rest ih => exact ih (List.not_mem_of_not_mem_cons h)
  | case4 inside c rest _ _ ih =>
    have hc : c ≠ ':' := fun hc => h (hc ▸ List.mem_cons_self)
    simp [hc, ih (List.not_mem_of_not_mem_cons h)]

/-- An endpoint with a host, with no colon of it outside square brackets, and with a port. -/
def Endpoint.IsUsable (e : Endpoint) : Prop :=
  e.host ≠ "" ∧ colonsEnclosed false e.host.toList = true ∧ e.port ≠ 0

/-- An entry as it should be: a host alone, or a host and a port other than zero. -/
def IsProper (entry : List Char) : Prop :=
  ':' ∉ entry ∨ ∃ host port, entry = host ++ ':' :: port ∧ ':' ∉ port ∧ host ≠ [] ∧
    colonsEnclosed false host = true ∧ ∃ c ∈ port, Decimal.isDigit c = true ∧ c ≠ '0'

/-- The port of a number is there when some digit is. -/
theorem port_ne_zero_iff {sign digits : List Char} {port : UInt16}
    (hsign : sign = [] ∨ sign = ['+']) (hdigits : ∀ c ∈ digits, Decimal.isDigit c = true)
    (hvalue : Decimal.natOnto 0 digits = port.toNat) :
    port ≠ 0 ↔ ∃ c ∈ sign ++ digits, Decimal.isDigit c = true ∧ c ≠ '0' := by
  have hzero : port = 0 ↔ ∀ c ∈ digits, c = '0' := by
    rw [← Decimal.natOnto_eq_zero_iff hdigits, hvalue, ← UInt16.toNat_inj]
    rfl
  have hplus : Decimal.isDigit '+' = false := by decide
  rw [ne_eq, hzero]
  push Not
  constructor
  · rintro ⟨c, hc, hne⟩
    exact ⟨c, List.mem_append_right _ hc, hdigits c hc, hne⟩
  · rintro ⟨c, hc, hdigit, hne⟩
    rcases List.mem_append.1 hc with hc | hc
    · rcases hsign with rfl | rfl
      · cases hc
      · rw [List.mem_singleton.1 hc, hplus] at hdigit
        cases hdigit
    · exact ⟨c, hc, hne⟩

/-- An entry names an endpoint that can be used when it is as it should be. -/
theorem isUsable_iff_isProper {defaultPort : UInt16} {entry : List Char} {e : Endpoint}
    (hport : defaultPort ≠ 0) (hentry : entry ≠ []) (h : Names defaultPort entry e) :
    e.IsUsable ↔ IsProper entry := by
  cases h with
  | host hcolon =>
    refine iff_of_true ⟨?_, ?_, hport⟩ (.inl hcolon)
    · exact fun hempty => hentry (String.ofList_eq_empty_iff.1 hempty)
    · rw [String.toList_ofList]
      exact colonsEnclosed_of_not_mem hcolon false
  | @both host sign digits port hsign hne hdigits hvalue =>
    have hnumber := colon_not_mem_number hsign hdigits
    rw [Endpoint.IsUsable, String.toList_ofList, port_ne_zero_iff hsign hdigits hvalue]
    constructor
    · rintro ⟨hhost, henclosed, hdigit⟩
      exact .inr ⟨host, sign ++ digits, rfl, hnumber, fun hnil => hhost (by rw [hnil]),
        henclosed, hdigit⟩
    · rintro (hcolon | ⟨host', port', heq, hport', hhost, henclosed, hdigit⟩)
      · exact absurd (List.mem_append_right host List.mem_cons_self) hcolon
      · -- There is only one last colon, so the parts are those that were named.
        have hsplit := congrArg splitAtLastColon? heq
        rw [splitAtLastColon?_append host hnumber, splitAtLastColon?_append host' hport'] at hsplit
        cases hsplit
        exact ⟨fun hempty => hhost (String.ofList_eq_empty_iff.1 hempty), henclosed, hdigit⟩

/-- What holds of the members of one list holds of those of another one, if it does member by
member. -/
theorem forall_mem_iff_of_forall₂ {α β : Type} {R : α → β → Prop} {p : α → Prop} {q : β → Prop}
    {as : List α} {bs : List β} (h : List.Forall₂ R as bs)
    (hpq : ∀ a ∈ as, ∀ b, R a b → (q b ↔ p a)) :
    (∀ b ∈ bs, q b) ↔ ∀ a ∈ as, p a := by
  induction h with
  | nil => simp
  | cons hab _ ih =>
    rw [List.forall_mem_cons, List.forall_mem_cons, hpq _ List.mem_cons_self _ hab,
      ih fun a ha => hpq a (List.mem_cons_of_mem _ ha)]

/-- Of settings that pass the check, the list of replicas is read as one endpoint for each entry
that is not blank, in their order. All of them can be used exactly when every entry is as it should
be. -/
theorem replicas_usable_iff {s : Settings} (h : s.check = .ok ()) (hport : s.database.port ≠ 0) :
    ∃ es, s.database.replicaEndpoints = .ok es ∧
      List.Forall₂ (Names s.database.port) s.database.entries es ∧
      ((∀ e ∈ es, e.IsUsable) ↔ ∀ entry ∈ s.database.entries, IsProper entry) := by
  obtain ⟨es, hes⟩ := exists_replicaEndpoints_of_check h
  have hnames := replicaEndpoints_eq_ok_iff.1 hes
  refine ⟨es, hes, hnames, forall_mem_iff_of_forall₂ hnames fun entry hentry e he => ?_⟩
  have hne : entry ≠ [] := by simpa using (List.mem_filter.1 hentry).2
  exact isUsable_iff_isProper hport hne he

/-- The settings that hold when nothing is configured, but for a list of replicas. -/
def withReplicas (replicas : List String) : Settings :=
  { Settings.default with database.replicas := replicas }

/-- A host with its port, and an address in brackets. -/
theorem replicas_usable_bracketed :
    (withReplicas ["db2:5433", " ", "[::1]:5432"]).check = .ok () ∧ (5432 : UInt16) ≠ 0 ∧
      ∃ es, (withReplicas ["db2:5433", " ", "[::1]:5432"]).database.replicaEndpoints = .ok es ∧
        es.length = 2 ∧ ∀ e ∈ es, e.IsUsable := by
  have hcheck : (withReplicas ["db2:5433", " ", "[::1]:5432"]).check = .ok () := by decide +kernel
  have hport : (5432 : UInt16) ≠ 0 := by decide
  obtain ⟨es, hes, hnames, hiff⟩ := replicas_usable_iff hcheck hport
  have hentries : (withReplicas ["db2:5433", " ", "[::1]:5432"]).database.entries =
      ["db2".toList ++ ':' :: "5433".toList, "[::1]".toList ++ ':' :: "5432".toList] := by
        decide +kernel
  rw [hentries] at hnames hiff
  refine ⟨hcheck, hport, es, hes, hnames.length_eq.symm, hiff.2 ?_⟩
  simp only [List.forall_mem_cons, List.not_mem_nil, false_implies, implies_true, and_true]
  exact ⟨.inr ⟨_, _, rfl, by decide, by decide, by decide, '5', by decide⟩,
    .inr ⟨_, _, rfl, by decide, by decide, by decide, '5', by decide⟩⟩

/-- Entries without a host, with the port zero and with a bare address pass the check. -/
theorem replicas_unusable :
    (withReplicas [":5433", "db2:0", "fe80::1"]).check = .ok () ∧
      (withReplicas [":5433", "db2:0", "fe80::1"]).database.port ≠ 0 ∧
      (withReplicas [":5433", "db2:0", "fe80::1"]).database.replicaEndpoints =
        .ok [⟨"", 5433⟩, ⟨"db2", 0⟩, ⟨"fe80:", 1⟩] ∧
      ∀ e ∈ [(⟨"", 5433⟩ : Endpoint), ⟨"db2", 0⟩, ⟨"fe80:", 1⟩], ¬e.IsUsable := by
  refine ⟨by decide +kernel, by decide, by decide +kernel, ?_⟩
  unfold Endpoint.IsUsable
  decide +kernel

end Intranet.Settings
