import Intranet.Proofs.Statements
import Mathlib.Data.List.TakeDrop
import Mathlib.Data.List.TakeWhile

/-!
# The schema of a connection

The name of the schema goes to the database in two ways: with quotes in the statement that creates
it, and as it is in the option of each connection that says where tables are looked up. The server
takes the one for the name itself, and reads the other as a list of identifiers.

* `createdSchema?_createSchema` — the statement creates the schema of that name, whatever the name;
* `optionWords_escape`, `settingOf?_optionText` — what the server makes of an option;
* `IsBare`, `searchPath?_eq_singleton_iff` — the names that a search path gives back as they are;
* `schema_agrees_iff` — the schema that is created is the one that is used exactly for such names;
* `portal_elsewhere` — a name with a capital letter is not one of them.
-/

namespace Intranet

namespace Database

/-! ## Names in quotes -/

/-- The statement that creates a schema names it, whatever the name. -/
theorem createdSchema?_createSchema (schema : String) :
    createdSchema? (createSchema schema) = some schema := by
  have hquoted : identFront? (quoteIdent schema).toList = some (schema.toList, []) := by
    rw [quoteIdent, String.toList_ofList, quoteIdentL, List.cons_append]
    exact quotedIdent?_doubled schema.toList (by simp)
  have hwords : createSchemaWords.toList.isPrefixOf
      (createSchemaWords.toList ++ (quoteIdent schema).toList) = true :=
    List.isPrefixOf_iff_prefix.2 (List.prefix_append _ _)
  rw [createdSchema?, createSchema, String.toList_append]
  simp only [hwords, if_true, List.drop_left, hquoted, String.ofList_toList]

/-! ## Options -/

/-- A blank that is not escaped in an option. -/
def isBreak (c : Char) : Bool := isServerBlank c && c ≠ ' '

/-- The words of an escaped text are its parts between the blanks that are not escaped. -/
theorem optionWords_escape (word cs : List Char) :
    optionWords word (escapeOptionL cs) =
      ((cs.splitOnP isBreak).modifyHead (word.reverse ++ ·)).filter (!·.isEmpty) := by
  induction cs generalizing word with
  | nil => cases word <;> simp [escapeOptionL, optionWords]
  | cons c cs ih =>
    -- Taking a character on is the same for an escaped one and for one that needs no escape.
    have hkeep : optionWords (c :: word) (escapeOptionL cs) =
        (((cs.splitOnP isBreak).modifyHead (List.cons c)).modifyHead (word.reverse ++ ·)).filter
          (!·.isEmpty) := by
      rw [ih, List.modifyHead_modifyHead]
      simp [Function.comp_def]
    have hescape : escapeOptionL (c :: cs) =
        (if c = ' ' ∨ c = '\\' then ['\\', c] else [c]) ++ escapeOptionL cs := List.flatMap_cons
    rw [List.splitOnP_cons_eq_if_modifyHead, hescape]
    by_cases hspecial : c = ' ' ∨ c = '\\'
    · have hbreak : isBreak c = false := by
        rcases hspecial with rfl | rfl <;> rfl
      rw [if_pos hspecial, hbreak, if_neg nofun, ← hkeep]
      rfl
    · rw [if_neg hspecial]
      rw [not_or] at hspecial
      have hstep : optionWords word (c :: escapeOptionL cs) =
          if isServerBlank c then
            if word.isEmpty then optionWords [] (escapeOptionL cs)
            else word.reverse :: optionWords [] (escapeOptionL cs)
          else optionWords (c :: word) (escapeOptionL cs) := by
        rw [optionWords]
        exact fun _ _ hc => absurd hc hspecial.2
      have hbreak : isBreak c = isServerBlank c := by simp [isBreak, hspecial.1]
      rw [List.singleton_append, hstep, hbreak]
      cases hblank : isServerBlank c with
      | false => rw [if_neg nofun, if_neg nofun, hkeep]
      | true =>
        have hid : (fun part : List Char => [].reverse ++ part) = id := rfl
        rw [if_pos rfl, if_pos rfl, ih, hid, List.modifyHead_id]
        cases word <;> simp

/-- No part of a text is longer than the text. -/
theorem length_le_of_mem_splitOnP {p : Char → Bool} {part cs : List Char}
    (h : part ∈ cs.splitOnP p) : part.length ≤ cs.length := by
  induction cs generalizing part with
  | nil =>
    rw [List.splitOnP_nil, List.mem_singleton] at h
    rw [h]
  | cons c cs ih =>
    rw [List.splitOnP_cons_eq_if_modifyHead] at h
    split at h
    · rcases List.mem_cons.1 h with rfl | h
      · exact Nat.zero_le _
      · exact Nat.le_succ_of_le (ih h)
    · cases hparts : cs.splitOnP p with
      | nil => exact absurd hparts (List.splitOnP_ne_nil p cs)
      | cons first rest =>
        rw [hparts, List.modifyHead_cons] at h
        rcases List.mem_cons.1 h with rfl | h
        · exact Nat.succ_le_succ (ih (hparts ▸ List.mem_cons_self))
        · exact Nat.le_succ_of_le (ih (hparts ▸ List.mem_cons_of_mem first h))

/-- The value of a setting is shorter than the word that gives it. -/
theorem length_lt_of_mem_settingsOfWords {words : List (List Char)}
    {setting : List Char × List Char} (h : setting ∈ settingsOfWords words) :
    ∃ word ∈ words, setting.2.length < word.length := by
  fun_induction settingsOfWords words with
  | case1 word rest name c value hspan ih =>
    rcases List.mem_cons.1 h with rfl | h
    · refine ⟨word, List.mem_cons_of_mem _ List.mem_cons_self, ?_⟩
      rw [List.span_eq_takeWhile_dropWhile, Prod.mk.injEq] at hspan
      have hle := (List.dropWhile_suffix (· ≠ '=') (l := word)).length_le
      rwa [hspan.2, List.length_cons, Nat.succ_le_iff] at hle
    · obtain ⟨found, hfound, hlt⟩ := ih h
      exact ⟨found, List.mem_cons_of_mem _ (List.mem_cons_of_mem _ hfound), hlt⟩
  | case2 word rest name hspan ih =>
    obtain ⟨found, hfound, hlt⟩ := ih h
    exact ⟨found, List.mem_cons_of_mem _ (List.mem_cons_of_mem _ hfound), hlt⟩
  | case3 word rest _ ih =>
    obtain ⟨found, hfound, hlt⟩ := ih h
    exact ⟨found, List.mem_cons_of_mem _ hfound, hlt⟩
  | case4 => exact absurd h List.not_mem_nil

/-! ## The setting -/

/-- The word of a setting, taken apart at its equals sign. -/
theorem settingsOfWords_searchPath (value : List Char) (words : List (List Char)) :
    settingsOfWords (['-', 'c'] :: (searchPathSetting.toList ++ '=' :: value) :: words) =
      (searchPathSetting.toList, value) :: settingsOfWords words := by
  have hspan : (searchPathSetting.toList ++ '=' :: value).span (· ≠ '=') =
      (searchPathSetting.toList, '=' :: value) := by
    rw [List.span_eq_takeWhile_dropWhile]
    rfl
  rw [settingsOfWords, hspan]

/-- The words of the option that sets the search path. -/
theorem optionWords_optionText (schema : String) :
    optionWords [] (optionText searchPathSetting schema).toList =
      ['-', 'c'] :: ((searchPathSetting.toList ++ '=' :: schema.toList).splitOnP isBreak).filter
        (!·.isEmpty) := by
  have hid : (fun part : List Char => [].reverse ++ part) = id := rfl
  have htext : (optionText searchPathSetting schema).toList =
      '-' :: 'c' :: ' ' :: escapeOptionL (searchPathSetting.toList ++ '=' :: schema.toList) := by
    simp [optionText, String.toList_append]
  have hwords := optionWords_escape [] (searchPathSetting.toList ++ '=' :: schema.toList)
  rw [hid, List.modifyHead_id] at hwords
  rw [htext]
  exact congrArg (List.cons ['-', 'c']) hwords

/-- What the server takes for the search path: the name, unless a blank in it is not escaped. Then
it is something shorter. -/
theorem settingOf?_optionText (schema : String) :
    ∃ value, settingOf? searchPathSetting (optionText searchPathSetting schema) = some value ∧
      (value = schema ∨
        (∃ c ∈ schema.toList, isBreak c = true) ∧ value.toList.length < schema.toList.length) := by
  rw [settingOf?, optionWords_optionText]
  have hname : ∀ c ∈ searchPathSetting.toList ++ ['='], isBreak c = false := by
    have hall : (searchPathSetting.toList ++ ['=']).all (fun c => !isBreak c) = true := by decide
    exact fun c hc => (Bool.not_eq_true' _).mp (List.all_eq_true.1 hall c hc)
  cases hfind : schema.toList.find? isBreak with
  | none =>
    have hbreaks : ∀ c ∈ schema.toList, isBreak c = false := fun c hc =>
      Bool.eq_false_iff.2 (List.find?_eq_none.1 hfind c hc)
    have hall : ∀ c ∈ searchPathSetting.toList ++ '=' :: schema.toList, isBreak c = false := by
      rw [List.append_cons, List.forall_mem_append]
      exact ⟨hname, hbreaks⟩
    refine ⟨schema, ?_, .inl rfl⟩
    rw [List.splitOnP_eq_singleton hall, List.filter_cons_of_pos (by simp), List.filter_nil,
      settingsOfWords_searchPath]
    simp [settingsOfWords]
  | some c =>
    obtain ⟨hc, first, rest, hschema, hfirst⟩ := List.find?_eq_some_iff_append.1 hfind
    have hpart : ∀ c ∈ searchPathSetting.toList ++ '=' :: first, isBreak c = false := by
      rw [List.append_cons, List.forall_mem_append]
      exact ⟨hname, fun c hc => by simpa using hfirst c hc⟩
    rw [hschema, ← List.cons_append, ← List.append_assoc,
      List.splitOnP_append_cons_of_forall_mem hpart c hc, List.filter_cons_of_pos (by simp),
      settingsOfWords_searchPath, List.filter_cons_of_pos (by simp)]
    -- Some setting comes last: the first one, or one that a later word gives.
    obtain ⟨setting, hlast⟩ := Option.isSome_iff_exists.1
      (List.getLast?_isSome.2 (List.cons_ne_nil (searchPathSetting.toList, first) _))
    refine ⟨String.ofList setting.2, by rw [hlast]; rfl, .inr ⟨⟨c, by simp, hc⟩, ?_⟩⟩
    rw [String.toList_ofList]
    rcases List.mem_cons.1 (List.mem_of_getLast? hlast) with rfl | hlater
    · simp only [List.length_append, List.length_cons]
      omega
    · obtain ⟨word, hword, hlt⟩ := length_lt_of_mem_settingsOfWords (List.mem_filter.1 hlater).1
      have hle := length_le_of_mem_splitOnP (List.mem_filter.1 hword).1
      simp only [List.length_append, List.length_cons]
      omega

/-! ## Search paths -/

/-- A name that needs no quotes: it is there, does not look quoted, and has no comma, no blank and
none of the letters from A to Z. -/
structure IsBare (name : String) : Prop where
  ne_empty : name ≠ ""
  unquoted : name.toList.head? ≠ some '"'
  single : ∀ c ∈ name.toList, isBareChar c = true
  small : ∀ c ∈ name.toList, ¬('A' ≤ c ∧ c ≤ 'Z')

theorem isBare_iff {name : String} :
    IsBare name ↔ (name ≠ "" ∧ name.toList.head? ≠ some '"') ∧
      name.toList.all (fun c => isBareChar c && !decide ('A' ≤ c ∧ c ≤ 'Z')) = true := by
  simp only [List.all_eq_true, Bool.and_eq_true, Bool.not_eq_true', decide_eq_false_iff_not]
  constructor
  · exact fun h => ⟨⟨h.ne_empty, h.unquoted⟩, fun c hc => ⟨h.single c hc, h.small c hc⟩⟩
  · rintro ⟨⟨hne, hquote⟩, hall⟩
    exact ⟨hne, hquote, fun c hc => (hall c hc).1, fun c hc => (hall c hc).2⟩

instance (name : String) : Decidable (IsBare name) := decidable_of_iff' _ isBare_iff

/-- An identifier without quotes is as long as it stands there. -/
theorem identFront?_bare {cs : List Char} (hne : cs ≠ []) (hquote : cs.head? ≠ some '"')
    (hbare : ∀ c ∈ cs, isBareChar c = true) :
    identFront? cs = some (cs.map Text.lowerChar, []) := by
  have htake : cs.takeWhile isBareChar = cs := List.takeWhile_eq_self_iff.2 hbare
  have hdrop : cs.dropWhile isBareChar = [] := List.dropWhile_eq_nil_iff.2 hbare
  have hempty : cs.isEmpty = false := by simpa using hne
  unfold identFront?
  split
  · exact absurd rfl hquote
  · rw [htake, hdrop, hempty, if_neg nofun]

/-- A list of identifiers has one. -/
theorem identList?_ne_nil (cs : List Char) : identList? cs ≠ some [] := by
  fun_cases identList? cs with
  | case1 hfront => nofun
  | case2 ident after hfront hafter => nofun
  | case3 ident after hfront rest hafter hlt =>
    intro h
    obtain ⟨idents, -, hcons⟩ := Option.map_eq_some_iff.1 h
    cases hcons
  | case4 ident after hfront c rest hafter hlt hcomma => nofun

/-- A list of one identifier is the identifier with blanks around it. -/
theorem identList?_eq_singleton_iff {cs ident : List Char} :
    identList? cs = some [ident] ↔
      ∃ after, identFront? (cs.dropWhile isServerBlank) = some (ident, after) ∧
        after.dropWhile isServerBlank = [] := by
  fun_cases identList? cs with
  | case1 hfront =>
    rw [hfront]
    simp
  | case2 found after hfront hafter =>
    rw [hfront]
    constructor
    · intro h
      cases h
      exact ⟨after, rfl, hafter⟩
    · rintro ⟨_, heq, -⟩
      cases heq
      rfl
  | case3 found after hfront rest hafter hlt =>
    rw [hfront]
    constructor
    · intro h
      obtain ⟨idents, hrest, hcons⟩ := Option.map_eq_some_iff.1 h
      cases hcons
      exact absurd hrest (identList?_ne_nil rest)
    · rintro ⟨_, heq, hnil⟩
      cases heq
      cases hafter.symm.trans hnil
  | case4 found after hfront c rest hafter hlt hcomma =>
    rw [hfront]
    constructor
    · nofun
    · rintro ⟨_, heq, hnil⟩
      cases heq
      cases hafter.symm.trans hnil

/-- The only schema on a search path. -/
theorem identFront?_of_searchPath? {value name : String} (h : searchPath? value = some [name]) :
    ∃ after, identFront? (value.toList.dropWhile isServerBlank) = some (name.toList, after) ∧
      after.dropWhile isServerBlank = [] := by
  rw [searchPath?] at h
  split at h
  · cases h
  · obtain ⟨idents, hlist, hmap⟩ := Option.map_eq_some_iff.1 h
    obtain ⟨ident, rfl, rfl⟩ := List.map_eq_singleton_iff.1 hmap
    rw [String.toList_ofList]
    exact identList?_eq_singleton_iff.1 hlist

/-- No schema has a longer name than what the search path is set to. -/
theorem length_le_of_searchPath? {value name : String} (h : searchPath? value = some [name]) :
    name.toList.length ≤ value.toList.length := by
  obtain ⟨after, hfront, -⟩ := identFront?_of_searchPath? h
  have hident := (length_identFront? hfront).1
  have hdrop := (List.dropWhile_suffix isServerBlank (l := value.toList)).length_le
  omega

/-- A name without quotes is read with small letters. -/
theorem searchPath?_unquoted {name : String} (hne : name ≠ "")
    (hquote : name.toList.head? ≠ some '"') (hbare : ∀ c ∈ name.toList, isBareChar c = true) :
    searchPath? name = some [Text.lower name] := by
  have hchars : name.toList ≠ [] := fun hnil => hne (String.toList_eq_nil_iff.1 hnil)
  have hfront := identFront?_bare hchars hquote hbare
  obtain ⟨c, rest, hname⟩ := List.exists_cons_of_ne_nil hchars
  have hblank : isServerBlank c = false := by
    have hc := hbare c (hname ▸ List.mem_cons_self)
    rw [isBareChar, Bool.and_eq_true, Bool.not_eq_true'] at hc
    exact hc.2
  have hall : name.toList.all isServerBlank = false := by
    rw [hname, List.all_cons, hblank, Bool.false_and]
  have hdrop : name.toList.dropWhile isServerBlank = name.toList := by
    rw [hname, List.dropWhile_cons_of_neg (by rw [hblank]; nofun)]
  have hlist : identList? name.toList = some [name.toList.map Text.lowerChar] :=
    identList?_eq_singleton_iff.2 ⟨[], by rw [hdrop, hfront], rfl⟩
  rw [searchPath?, hall, if_neg nofun, hlist]
  rfl

/-- A text that is an identifier as a whole, and stands for itself, needs no quotes. -/
theorem isBare_of_identFront? {name : String}
    (h : identFront? name.toList = some (name.toList, [])) : IsBare name := by
  rw [identFront?.eq_def] at h
  split at h
  · next rest hname =>
    -- Without its quotes it would be shorter.
    have := length_quotedIdent? h
    rw [hname] at this
    simp only [List.length_cons, List.length_nil] at this
    omega
  · next hunquoted =>
    split at h
    · cases h
    · next hempty =>
      rw [Option.some.injEq, Prod.mk.injEq] at h
      obtain ⟨hmap, hdrop⟩ := h
      have hsingle := List.dropWhile_eq_nil_iff.1 hdrop
      rw [List.takeWhile_eq_self_iff.2 hsingle] at hmap hempty
      have hself := List.map_inj_left.1 (hmap.trans (List.map_id name.toList).symm)
      refine ⟨?_, ?_, hsingle, fun c hc => Text.lowerChar_eq_self_iff.1 (hself c hc)⟩
      · rintro rfl
        exact hempty rfl
      · intro hquote
        obtain ⟨rest, hname⟩ := List.head?_eq_some_iff.1 hquote
        exact hunquoted rest hname

/-- **Names that a search path gives back.** They are the ones that need no quotes. -/
theorem searchPath?_eq_singleton_iff {name : String} :
    searchPath? name = some [name] ↔ IsBare name := by
  constructor
  · intro h
    obtain ⟨after, hfront, -⟩ := identFront?_of_searchPath? h
    have hident := length_identFront? hfront
    have hsuffix := List.dropWhile_suffix isServerBlank (l := name.toList)
    -- The identifier takes as much as there is, so nothing stands around it.
    have hdrop : name.toList.dropWhile isServerBlank = name.toList :=
      hsuffix.eq_of_length (by have := hsuffix.length_le; omega)
    have hnil : after = [] := List.length_eq_zero_iff.1 (by rw [hdrop] at hident; omega)
    rw [hdrop, hnil] at hfront
    exact isBare_of_identFront? hfront
  · intro h
    have hsmall : name.toList.map Text.lowerChar = name.toList :=
      (List.map_congr_left (g := id) fun c hc =>
        Text.lowerChar_eq_self_iff.2 (h.small c hc)).trans (List.map_id _)
    rw [searchPath?_unquoted h.ne_empty h.unquoted h.single, Text.lower, hsmall,
      String.ofList_toList]

/-! ## The schema that is created and the one that is used -/

theorem head?_sent {schema : String} (refusal : Nat → Option String)
    (hschema : schema ≠ publicSchema) :
    (Preparing.exec (prepare refusal schema) ⟨[], []⟩).2.sent.head? =
      some (createSchema schema) := by
  obtain ⟨later, hsent, -⟩ := exists_sent_eq refusal hschema
  rw [hsent]
  rfl

/-- **The schema of a connection.** The schema that is created has the name that is configured, and
it is the only one that connections look into exactly when that name needs no quotes. -/
theorem schema_agrees_iff {d : Settings.Database} (hschema : d.schema ≠ publicSchema)
    (refusal : Nat → Option String) :
    ∃ statement, (Preparing.exec (prepare refusal d.schema) ⟨[], []⟩).2.sent.head? =
      some statement ∧
      createdSchema? statement = some d.schema ∧
      ((Startup.ofSettings d).searchPath? = some [d.schema] ↔ IsBare d.schema) := by
  refine ⟨createSchema d.schema, head?_sent refusal hschema,
    createdSchema?_createSchema d.schema, ?_⟩
  obtain ⟨value, hvalue, hcases⟩ := settingOf?_optionText d.schema
  have hpath : (Startup.ofSettings d).searchPath? = searchPath? value := by
    rw [Startup.searchPath?, Startup.ofSettings, hvalue, Option.bind_some]
  rw [hpath, ← searchPath?_eq_singleton_iff]
  rcases hcases with rfl | ⟨⟨c, hc, hbreak⟩, hlt⟩
  · rfl
  · -- The search path is too short, and the name has a blank.
    constructor
    · intro h
      exact absurd (length_le_of_searchPath? h) (Nat.not_le.2 hlt)
    · intro h
      have hbare := (searchPath?_eq_singleton_iff.1 h).single c hc
      rw [isBreak, Bool.and_eq_true] at hbreak
      rw [isBareChar, hbreak.1, Bool.not_true, Bool.and_false] at hbare
      cases hbare

/-- Backslashes and equals signs need no quotes, nor does a quote behind the first character. -/
theorem schema_agrees_marked :
    "a\\b=\"ü" ≠ publicSchema ∧ IsBare "a\\b=\"ü" ∧
      ∃ statement,
        (Preparing.exec (prepare (fun _ => none) "a\\b=\"ü") ⟨[], []⟩).2.sent.head? =
          some statement ∧
        createdSchema? statement = some "a\\b=\"ü" ∧
        (Startup.ofSettings { Settings.default.database with schema := "a\\b=\"ü" }).searchPath? =
          some ["a\\b=\"ü"] := by
  have hschema : "a\\b=\"ü" ≠ publicSchema := by decide
  have hbare : IsBare "a\\b=\"ü" := by decide
  obtain ⟨statement, hsent, hcreated, hpath⟩ :=
    schema_agrees_iff (d := { Settings.default.database with schema := "a\\b=\"ü" })
      hschema fun _ => none
  exact ⟨hschema, hbare, statement, hsent, hcreated, hpath.2 hbare⟩

/-- A name with a capital letter is created as it is, and looked up with a small one. -/
theorem portal_elsewhere :
    "Portal" ≠ publicSchema ∧
      (Preparing.exec (prepare (fun _ => none) "Portal") ⟨[], []⟩).2.sent.head? =
        some (createSchema "Portal") ∧
      createdSchema? (createSchema "Portal") = some "Portal" ∧
      (Startup.ofSettings { Settings.default.database with schema := "Portal" }).searchPath? =
        some ["portal"] := by
  have hschema : "Portal" ≠ publicSchema := by decide
  have hsetting : settingOf? searchPathSetting (optionText searchPathSetting "Portal") =
      some "Portal" := by
    decide +kernel
  refine ⟨hschema, head?_sent _ hschema, createdSchema?_createSchema "Portal", ?_⟩
  rw [Startup.searchPath?, Startup.ofSettings, hsetting, Option.bind_some,
    searchPath?_unquoted (by decide) (by decide) (List.all_eq_true.1 (by decide))]
  decide

end Database

end Intranet
