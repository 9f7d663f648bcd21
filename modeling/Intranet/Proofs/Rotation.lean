import Intranet.Database.Pools
import Intranet.Proofs.Layering
import Intranet.Proofs.Replicas
import Mathlib.Data.List.Rotate

/-!
# Replicas take turns

A list of replicas, however it is written into its variable, is read as the endpoints that it
names, and reads go to the pools of these in turn.

* `Settings.Written` — ways of writing a list of endpoints;
* `Settings.replicaEndpoints_of_written` — a list that was written is read back;
* `Settings.replicas_of_load` — what loaded settings have of the variable;
* `Database.Pools.reads_eq_map`, `Database.Pools.window_eq_rotate` — the pools for reads in a row;
* `Database.written_replicas_take_turns` — all of it together.
-/

namespace Intranet

namespace Settings

/-! ## Writing a list -/

/-- A host that can be written: not empty, and without colons, commas and blanks. -/
def IsHost (host : String) : Prop :=
  host ≠ "" ∧ ∀ c ∈ host.toList, c ≠ ':' ∧ c ≠ ',' ∧ Text.isBlank c = false

instance : DecidablePred IsHost :=
  fun host => @instDecidableAnd _ _ _ (List.decidableBAll _ host.toList)

/-- The parts of a text for a list of endpoints: one for each endpoint, with any blanks around it,
and any blank ones. -/
inductive Written (defaultPort : UInt16) : List Endpoint → List (List Char) → Prop
  | nil : Written defaultPort [] []
  | blank {es : List Endpoint} {parts : List (List Char)} {part : List Char} :
    (∀ c ∈ part, Text.isBlank c = true) → Written defaultPort es parts →
    Written defaultPort es (part :: parts)
  | entry {e : Endpoint} {es : List Endpoint} {parts : List (List Char)}
    {lead entry trail : List Char} :
    (∀ c ∈ lead, Text.isBlank c = true) → (∀ c ∈ trail, Text.isBlank c = true) → IsHost e.host →
    Names defaultPort entry e → Written defaultPort es parts →
    Written defaultPort (e :: es) ((lead ++ entry ++ trail) :: parts)

/-- The text that is put together of parts, with commas between them. -/
def textOf (parts : List (List Char)) : String := String.ofList ([','].intercalate parts)

/-- The entry for a host that can be written has no commas and no blanks, and it is not empty. -/
theorem entry_clean {defaultPort : UInt16} {entry : List Char} {e : Endpoint}
    (hhost : IsHost e.host) (h : Names defaultPort entry e) :
    entry ≠ [] ∧ ∀ c ∈ entry, c ≠ ',' ∧ Text.isBlank c = false := by
  obtain ⟨hne, hchars⟩ := hhost
  cases h with
  | @host host _ =>
    rw [String.toList_ofList] at hchars
    exact ⟨fun hnil => hne (by rw [hnil]), fun c hc => (hchars c hc).2⟩
  | @both host sign digits port hsign _ hdigits _ =>
    rw [String.toList_ofList] at hchars
    refine ⟨by simp, fun c hc => ?_⟩
    rcases List.mem_append.1 hc with hc | hc
    · exact (hchars c hc).2
    rcases List.mem_cons.1 hc with rfl | hc
    · decide
    rcases List.mem_append.1 hc with hc | hc
    · rcases hsign with rfl | rfl
      · cases hc
      · rw [List.mem_singleton.1 hc]
        decide
    · exact ⟨fun hcomma => absurd (hdigits c hc) (by rw [hcomma]; decide),
        Decimal.isBlank_of_isDigit (hdigits c hc)⟩

/-- No part has a comma. -/
theorem comma_not_mem_part {defaultPort : UInt16} {es : List Endpoint} {parts : List (List Char)}
    (h : Written defaultPort es parts) : ∀ part ∈ parts, ',' ∉ part := by
  have hcomma : ∀ {blanks : List Char}, (∀ c ∈ blanks, Text.isBlank c = true) → ',' ∉ blanks :=
    fun hblanks hmem => absurd (hblanks ',' hmem) (by decide)
  induction h with
  | nil => exact fun _ hpart => absurd hpart List.not_mem_nil
  | blank hblank _ ih => exact List.forall_mem_cons.2 ⟨hcomma hblank, ih⟩
  | entry hlead htrail hhost hname _ ih =>
    refine List.forall_mem_cons.2 ⟨fun hmem => ?_, ih⟩
    rcases List.mem_append.1 hmem with hmem | hmem
    · rcases List.mem_append.1 hmem with hmem | hmem
      · exact hcomma hlead hmem
      · exact ((entry_clean hhost hname).2 ',' hmem).1 rfl
    · exact hcomma htrail hmem

/-! ## Reading it back -/

/-- The entries of a text without blanks and blank ones. -/
theorem exists_entries_of_written {defaultPort : UInt16} {es : List Endpoint}
    {parts : List (List Char)} (h : Written defaultPort es parts) :
    ∃ entries, (parts.map Text.trimL).filter (!·.isEmpty) = entries ∧
      List.Forall₂ (Names defaultPort) entries es ∧
      ∀ entry ∈ entries, entry ≠ [] ∧ Text.trimL entry = entry := by
  induction h with
  | nil => exact ⟨[], rfl, .nil, by simp⟩
  | @blank es parts part hblank _ ih =>
    obtain ⟨entries, hentries, hnames, hclean⟩ := ih
    have htrim : Text.trimL part = [] := by
      rw [← List.append_nil part, Text.trimL_append_left hblank]
      rfl
    refine ⟨entries, ?_, hnames, hclean⟩
    rw [List.map_cons, htrim, List.filter_cons_of_neg (by simp), hentries]
  | @entry e es parts lead entry trail hlead htrail hhost hname _ ih =>
    obtain ⟨entries, hentries, hnames, hclean⟩ := ih
    obtain ⟨hne, hchars⟩ := entry_clean hhost hname
    have hself : Text.trimL entry = entry := Text.trimL_eq_self fun c hc => (hchars c hc).2
    have htrim : Text.trimL (lead ++ entry ++ trail) = entry := by
      rw [Text.trimL_append_right htrail, Text.trimL_append_left hlead, hself]
    refine ⟨entry :: entries, ?_, .cons hname hnames,
      List.forall_mem_cons.2 ⟨⟨hne, hself⟩, hclean⟩⟩
    rw [List.map_cons, htrim, List.filter_cons_of_pos (by simpa using hne), hentries]

/-- The list of a text has the entries of its parts. -/
theorem commaList_textOf {parts : List (List Char)} (hparts : ∀ part ∈ parts, ',' ∉ part) :
    commaList (textOf parts) = ((parts.map Text.trimL).filter (!·.isEmpty)).map String.ofList := by
  cases parts with
  | nil => decide +kernel
  | cons part rest =>
    rw [commaList, textOf, String.toList_ofList,
      List.splitOn_intercalate ',' hparts (List.cons_ne_nil part rest)]

/-- A list that was written is read back. -/
theorem replicaEndpoints_of_written {es : List Endpoint} {parts : List (List Char)} {d : Database}
    (h : Written d.port es parts) (hreplicas : d.replicas = commaList (textOf parts)) :
    d.replicaEndpoints = .ok es := by
  obtain ⟨entries, hentries, hnames, hclean⟩ := exists_entries_of_written h
  have hread : d.entries = entries := by
    have hself : entries.map (fun entry => Text.trimL (String.ofList entry).toList) = entries := by
      conv_rhs => rw [← List.map_id entries]
      refine List.map_congr_left fun entry hentry => ?_
      rw [String.toList_ofList, (hclean entry hentry).2, id]
    rw [Database.entries, hreplicas, commaList_textOf (comma_not_mem_part h),
      hentries, List.map_map]
    refine Eq.trans (congrArg _ hself) (List.filter_eq_self.2 fun entry hentry => ?_)
    simpa using (hclean entry hentry).1
  rw [replicaEndpoints_eq_ok_iff, hread]
  exact hnames

/-- A text for a list with an endpoint is not blank. -/
theorem isBlankText_textOf {defaultPort : UInt16} {es : List Endpoint} {parts : List (List Char)}
    (h : Written defaultPort es parts) (hes : es ≠ []) :
    Text.isBlankText (textOf parts) = false := by
  obtain ⟨part, hpart, c, hc, hblank⟩ : ∃ part ∈ parts, ∃ c ∈ part, Text.isBlank c = false := by
    induction h with
    | nil => exact absurd rfl hes
    | blank _ _ ih =>
      obtain ⟨part, hpart, hc⟩ := ih hes
      exact ⟨part, List.mem_cons_of_mem _ hpart, hc⟩
    | @entry e es parts lead entry trail _ _ hhost hname _ _ =>
      obtain ⟨hne, hchars⟩ := entry_clean hhost hname
      obtain ⟨c, rest, rfl⟩ := List.exists_cons_of_ne_nil hne
      exact ⟨_, List.mem_cons_self, c, by simp, (hchars c List.mem_cons_self).2⟩
  rw [Text.isBlankText, textOf, String.toList_ofList, List.all_eq_false]
  exact ⟨c, Http.mem_intercalate_of_mem hpart hc, by simp [hblank]⟩

/-- Loaded settings have the list of the variable for replicas, if that is not blank. -/
theorem replicas_of_load {s : Surroundings} {cfg : Settings} {text : String} (h : load s = .ok cfg)
    (hvariable : s.allVariables.get? "DATABASE_REPLICAS" = some text)
    (htext : Text.isBlankText text = false) :
    cfg.database.replicas = commaList text := by
  obtain ⟨l, -, hread⟩ := read_of_load h
  have hgiven : s.allVariables.notBlank? "DATABASE_REPLICAS" = some text := by
    rw [Variables.notBlank?, hvariable, Option.filter_some, htext]
    rfl
  have htexts : ∀ texts : List String, (texts.map Value.str).mapM Value.text? = some texts := by
    intro texts
    induction texts with
    | nil => rfl
    | cons t texts ih => rw [List.map_cons, List.mapM_cons, ih]; rfl
  have hmem : ⟨"database", "replicas", some "DATABASE_REPLICAS", needed Value.texts?,
      (·.database.replicas)⟩ ∈ all := by
    simp [all]
  have hreplicas := hread _ hmem
  dsimp only at hreplicas
  rw [given?, Option.bind_some, hgiven, Option.map_some, Option.some_or] at hreplicas
  exact (Option.some.inj ((htexts _).symm.trans hreplicas)).symm

end Settings

namespace Database

open Settings (Endpoint Written textOf commaList)

namespace Pools

variable {p : Pools}

/-! ## Reads in a row -/

/-- A read goes to the replica whose turn it is, and the next one to another. -/
theorem reader_of_ne_nil (h : p.replicas ≠ []) :
    p.reader = (.replica (p.next.toNat % p.replicas.length), { p with next := p.next + 1 }) := by
  rw [reader, if_neg (by simpa using h)]

/-- Without replicas a read goes to the primary database and leaves all as it is. -/
theorem reader_of_nil (h : p.replicas = []) : p.reader = (.primary, p) := by
  rw [reader, if_pos (by simp [h])]

/-- As long as the counter does not wrap around, the replicas are read in turn: each read moves the
counter on by one, and those after it go on from there. -/
theorem reads_eq_map (h : p.replicas ≠ []) {calls : Nat}
    (hcalls : p.next.toNat + calls < Nat.pow 2 64) :
    (p.reads calls).1 =
      (List.range' p.next.toNat calls).map fun k => .replica (k % p.replicas.length) := by
  induction calls generalizing p with
  | zero => rfl
  | succ calls ih =>
    have hnext : (p.next + 1).toNat = p.next.toNat + 1 := by
      rw [UInt64.toNat_add, UInt64.toNat_one]
      exact Nat.mod_eq_of_lt (Nat.lt_of_le_of_lt (by omega) hcalls)
    have hrest := @ih { p with next := p.next + 1 } h (by
      dsimp only
      omega)
    rw [reads, reader_of_ne_nil h, List.range'_succ, List.map_cons]
    dsimp only at hrest ⊢
    rw [hrest, hnext]

theorem reads_of_nil (h : p.replicas = []) (calls : Nat) :
    p.reads calls = (List.replicate calls .primary, p) := by
  induction calls with
  | zero => rfl
  | succ calls ih =>
    rw [reads, reader_of_nil h]
    dsimp only
    rw [ih, List.replicate_succ]

/-- As many reads in a row as there are replicas go once around all of them. -/
theorem window_eq_rotate (h : p.replicas ≠ []) {calls i : Nat}
    (hcalls : p.next.toNat + calls < Nat.pow 2 64) (hi : i + p.replicas.length ≤ calls) :
    ((p.reads calls).1.drop i).take p.replicas.length =
      ((List.range p.replicas.length).map .replica).rotate (p.next.toNat + i) := by
  rw [reads_eq_map h hcalls]
  apply List.ext_getElem
  · simp
    omega
  · intro k hk hk'
    have hlen : k < p.replicas.length := by simpa using hk'
    rw [List.getElem_rotate]
    simp only [List.getElem_take, List.getElem_drop, List.getElem_map, List.getElem_range',
      List.getElem_range, List.length_map, List.length_range]
    congr 2
    omega

end Pools

/-- A list of endpoints with hosts that can be written, in any way of writing it with commas into
its variable, is what the settings have, and it is read back as it was. The pools of the replicas
lead to these endpoints, and of fewer than 2 ^ 64 reads, as many in a row as there are replicas go
to each of their pools once. Without replicas all reads go to the primary database. -/
theorem written_replicas_take_turns {port : UInt16} {es : List Endpoint} {parts : List (List Char)}
    (h : Written port es parts) :
    (es ≠ [] → ∀ s cfg, Settings.load s = .ok cfg →
      s.allVariables.get? "DATABASE_REPLICAS" = some (textOf parts) →
      cfg.database.replicas = commaList (textOf parts)) ∧
    (∀ d : Settings.Database, d.port = port → d.replicas = commaList (textOf parts) →
      d.replicaEndpoints = .ok es ∧
      ∃ p, Pools.ofSettings d = .ok p ∧ (∀ i, p.endpoint? (.replica i) = es[i]?) ∧
        ∀ calls < Nat.pow 2 64, ∀ i, i + es.length ≤ calls →
          List.Perm (((p.reads calls).1.drop i).take es.length)
            ((List.range es.length).map .replica)) ∧
    ∀ d : Settings.Database, d.replicaEndpoints = .ok [] →
      ∃ p, Pools.ofSettings d = .ok p ∧ ∀ calls,
        (p.reads calls).1 = List.replicate calls .primary := by
  refine ⟨?_, ?_, ?_⟩
  · intro hes s cfg hload hvariable
    exact Settings.replicas_of_load hload hvariable (Settings.isBlankText_textOf h hes)
  · rintro d rfl hreplicas
    have hes := Settings.replicaEndpoints_of_written h hreplicas
    refine ⟨hes, ⟨⟨d.host, d.port⟩, es, 0⟩, by rw [Pools.ofSettings, hes]; rfl, fun i => rfl, ?_⟩
    intro calls hcalls i hi
    by_cases hnil : es = []
    · subst hnil
      simp
    · have hwindow := @Pools.window_eq_rotate ⟨⟨d.host, d.port⟩, es, 0⟩ hnil calls i
        (by rwa [UInt64.toNat_zero, Nat.zero_add]) hi
      exact (List.Perm.of_eq hwindow).trans (List.rotate_perm _ _)
  · intro d hnil
    refine ⟨⟨⟨d.host, d.port⟩, [], 0⟩, by rw [Pools.ofSettings, hnil]; rfl, fun calls => ?_⟩
    rw [Pools.reads_of_nil rfl]

/-- Two replicas, one of them with the port of the database, among blanks and blank parts. -/
theorem written_replicas_take_turns_two :
    ∃ cfg p, Settings.load ⟨[("DATABASE_REPLICAS", ", db2:05433 , ,db3")], []⟩ = .ok cfg ∧
      Pools.ofSettings cfg.database = .ok p ∧
      (∀ i, p.endpoint? (.replica i) = [(⟨"db2", 5433⟩ : Endpoint), ⟨"db3", 5432⟩][i]?) ∧
      List.Perm (((p.reads 5).1.drop 2).take 2) [.replica 0, .replica 1] := by
  have hload : Settings.load ⟨[("DATABASE_REPLICAS", ", db2:05433 , ,db3")], []⟩ =
      .ok (Settings.withReplicas ["db2:05433", "db3"]) := by decide +kernel
  have htext : textOf [[], " ".toList ++ "db2:05433".toList ++ " ".toList, " ".toList,
      [] ++ "db3".toList ++ []] = ", db2:05433 , ,db3" := by decide +kernel
  have hfirst : Settings.Names 5432 "db2:05433".toList ⟨"db2", 5433⟩ :=
    @Settings.Names.both _ "db2".toList [] "05433".toList 5433 (.inl rfl) (by decide)
      (List.all_eq_true.1 (by decide)) rfl
  have hsecond : Settings.Names 5432 "db3".toList ⟨"db3", 5432⟩ := .host (by decide)
  have hnone : ∀ c ∈ ([] : List Char), Text.isBlank c = true := List.all_eq_true.1 rfl
  have hblank : ∀ c ∈ " ".toList, Text.isBlank c = true := List.all_eq_true.1 (by decide)
  have hwritten : Written 5432 [⟨"db2", 5433⟩, ⟨"db3", 5432⟩]
      [[], " ".toList ++ "db2:05433".toList ++ " ".toList, " ".toList, [] ++ "db3".toList ++ []] :=
    .blank hnone <| .entry hblank hblank (by decide) hfirst <|
    .blank hblank <| .entry hnone hnone (by decide) hsecond .nil
  obtain ⟨hsettings, hturns, -⟩ := written_replicas_take_turns hwritten
  rw [htext] at hsettings hturns
  have hreplicas := hsettings (by decide) _ _ hload rfl
  obtain ⟨-, p, hp, hends, hwindow⟩ :=
    hturns (Settings.withReplicas ["db2:05433", "db3"]).database rfl hreplicas
  exact ⟨_, p, hload, hp, hends, hwindow 5 (by decide) 2 (by decide)⟩

end Database

end Intranet
