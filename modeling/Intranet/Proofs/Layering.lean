import Intranet.Proofs.Overlays
import Intranet.Settings.Layers
import Mathlib.Data.List.Basic

/-!
# What each setting comes from

Sources of settings lie in layers. Every setting is read from what its own variable says, if that
is not blank, and otherwise from the highest of the other layers that sets its key. So a variable
decides about its own setting and about no other one.

* `all`, `ext_of_all` — the settings one by one, and that there are no others;
* `reads_of_ofValue?` — each setting is read from the value under its name in its section;
* `findSome?_named` — what the variables with names of their own say;
* `read_given_or_lower` — the value that counts for a setting;
* `load_layered` — the same for loaded settings, with what a change of one variable leaves alone.
-/

namespace Intranet

/-- A setting: the section and the name under which sources give it, the variable of its own if it
has one, what is made of its value or of the lack of one, and its place among all settings. -/
structure Setting where
  group : String
  name : String
  variableName : Option String
  {Content : Type}
  read : Option Settings.Value → Option Content
  get : Settings → Content

namespace Settings

/-- Reads a value that has to be there. -/
def needed {α : Type} (read : Value → Option α) (v : Option Value) : Option α := v.bind read

/-- Reads a text that may be missing. -/
def optional : Option Value → Option (Option String)
  | none => some none
  | some v => v.optionalText?

/-- All settings. -/
def all : List Setting :=
  [⟨"server", "host", none, needed Value.text?, (·.server.host)⟩,
    ⟨"server", "port", some "PORT", needed Value.port?, (·.server.port)⟩,
    ⟨"server", "login_path", none, needed Value.text?, (·.server.loginPath)⟩,
    ⟨"log", "level", some "LOG_LEVEL", needed Value.text?, (·.log.level)⟩,
    ⟨"log", "server", some "LOG_SERVER", optional, (·.log.server)⟩,
    ⟨"log", "dir", none, needed Value.text?, (·.log.dir)⟩,
    ⟨"log", "file", none, needed Value.text?, (·.log.file)⟩,
    ⟨"session", "redis_uri", some "SESSION_REDIS_URI", optional, (·.session.redisUri)⟩,
    ⟨"session", "redis_host", some "SESSION_REDIS_HOST", needed Value.text?,
      (·.session.redisHost)⟩,
    ⟨"session", "redis_port", some "SESSION_REDIS_PORT", needed Value.port?,
      (·.session.redisPort)⟩,
    ⟨"session", "redis_db", some "SESSION_REDIS_DB", needed Value.count?, (·.session.redisDb)⟩,
    ⟨"session", "secret", some "SESSION_SECRET", needed Value.text?, (·.session.secret)⟩,
    ⟨"session", "cookie_name", none, needed Value.text?, (·.session.cookieName)⟩,
    ⟨"session", "cookie_ttl_secs", some "SESSION_COOKIE_TTL", needed Value.longCount?,
      (·.session.cookieTtlSecs)⟩,
    ⟨"database", "host", some "DATABASE_HOST", needed Value.text?, (·.database.host)⟩,
    ⟨"database", "port", some "DATABASE_PORT", needed Value.port?, (·.database.port)⟩,
    ⟨"database", "username", some "DATABASE_USERNAME", needed Value.text?, (·.database.username)⟩,
    ⟨"database", "password", some "DATABASE_PASSWORD", needed Value.text?, (·.database.password)⟩,
    ⟨"database", "database", some "DATABASE_DATABASE", needed Value.text?, (·.database.database)⟩,
    ⟨"database", "schema", some "DATABASE_SCHEMA", needed Value.text?, (·.database.schema)⟩,
    ⟨"database", "replicas", some "DATABASE_REPLICAS", needed Value.texts?, (·.database.replicas)⟩,
    ⟨"database", "max_connections", some "DATABASE_MAX_CONNECTIONS", needed Value.count?,
      (·.database.maxConnections)⟩,
    ⟨"database", "logging", some "DATABASE_LOGGING", needed Value.truth?, (·.database.logging)⟩,
    ⟨"database", "slow_query_threshold_ms", none, needed Value.longCount?,
      (·.database.slowQueryThresholdMs)⟩,
    ⟨"files", "url", some "FILES_URL", needed Value.text?, (·.files.url)⟩,
    ⟨"files", "timeout_secs", none, needed Value.longCount?, (·.files.timeoutSecs)⟩,
    ⟨"microservice", "url", some "MICROSERVICE_URL", needed Value.text?, (·.microservice.url)⟩,
    ⟨"microservice", "sync_pattern", none, needed Value.text?, (·.microservice.syncPattern)⟩,
    ⟨"microservice", "timeout_secs", none, needed Value.longCount?, (·.microservice.timeoutSecs)⟩]

/-- The names of a section, in their order. -/
def names (group : String) : List String := (all.filter (·.group = group)).map (·.name)

/-- Settings that agree in each setting are the same. -/
theorem ext_of_all {s t : Settings} (h : ∀ f ∈ all, f.get s = f.get t) : s = t := by
  simp only [all, List.forall_mem_cons] at h
  obtain ⟨⟨_, _, _⟩, ⟨_, _, _, _⟩, ⟨_, _, _, _, _, _, _⟩, ⟨_, _, _, _, _, _, _, _, _, _⟩, ⟨_, _⟩,
    ⟨_, _, _⟩⟩ := s
  obtain ⟨⟨_, _, _⟩, ⟨_, _, _, _⟩, ⟨_, _, _, _, _, _, _⟩, ⟨_, _, _, _, _, _, _, _, _, _⟩, ⟨_, _⟩,
    ⟨_, _, _⟩⟩ := t
  simp_all

/-! ## Reading sections -/

/-- A section is read: its value has fields, and each setting of it is what its field is read
as. -/
def Reads (group : String) (v : Value) (s : Settings) : Prop :=
  ∃ fields, v.section? (names group) = some fields ∧
    ∀ f ∈ all, f.group = group → f.read (Table.get? f.name fields) = some (f.get s)

theorem require_eq {α : Type} (fields : Table) (key : String) (read : Value → Option α) :
    fields.require key read = needed read (Table.get? key fields) := rfl

theorem optionalText_eq (fields : Table) (key : String) :
    fields.optionalText key = optional (Table.get? key fields) := by
  rw [Table.optionalText]
  cases Table.get? key fields <;> rfl

section Sections

variable {v : Value} {s : Settings}

theorem reads_server (h : Server.ofValue? v = some s.server) : Reads "server" v s := by
  simp only [Server.ofValue?, require_eq, Option.bind_eq_bind, Option.bind_eq_some_iff,
    Option.pure_def, Option.some.injEq] at h
  obtain ⟨fields, hsection, host, hhost, port, hport, path, hpath, hs⟩ := h
  refine ⟨fields, hsection, ?_⟩
  simp [all, ← hs, hhost, hport, hpath]

theorem reads_log (h : Logging.ofValue? v = some s.log) : Reads "log" v s := by
  simp only [Logging.ofValue?, require_eq, optionalText_eq, Option.bind_eq_bind,
    Option.bind_eq_some_iff, Option.pure_def, Option.some.injEq] at h
  obtain ⟨fields, hsection, level, hlevel, server, hserver, dir, hdir, file, hfile, hs⟩ := h
  refine ⟨fields, hsection, ?_⟩
  simp [all, ← hs, hlevel, hserver, hdir, hfile]

theorem reads_session (h : Sessions.ofValue? v = some s.session) : Reads "session" v s := by
  simp only [Sessions.ofValue?, require_eq, optionalText_eq, Option.bind_eq_bind,
    Option.bind_eq_some_iff, Option.pure_def, Option.some.injEq] at h
  obtain ⟨fields, hsection, uri, huri, host, hhost, port, hport, db, hdb, secret, hsecret,
    cookie, hcookie, ttl, httl, hs⟩ := h
  refine ⟨fields, hsection, ?_⟩
  simp [all, ← hs, huri, hhost, hport, hdb, hsecret, hcookie, httl]

theorem reads_database (h : Database.ofValue? v = some s.database) : Reads "database" v s := by
  simp only [Database.ofValue?, require_eq, Option.bind_eq_bind, Option.bind_eq_some_iff,
    Option.pure_def, Option.some.injEq] at h
  obtain ⟨fields, hsection, host, hhost, port, hport, user, huser, password, hpassword, database,
    hdatabase, schema, hschema, replicas, hreplicas, connections, hconnections, logging, hlogging,
    threshold, hthreshold, hs⟩ := h
  refine ⟨fields, hsection, ?_⟩
  simp [all, ← hs, hhost, hport, huser, hpassword, hdatabase, hschema, hreplicas,
    hconnections, hlogging, hthreshold]

theorem reads_files (h : Files.ofValue? v = some s.files) : Reads "files" v s := by
  simp only [Files.ofValue?, require_eq, Option.bind_eq_bind, Option.bind_eq_some_iff,
    Option.pure_def, Option.some.injEq] at h
  obtain ⟨fields, hsection, url, hurl, timeout, htimeout, hs⟩ := h
  refine ⟨fields, hsection, ?_⟩
  simp [all, ← hs, hurl, htimeout]

theorem reads_microservice (h : Microservice.ofValue? v = some s.microservice) :
    Reads "microservice" v s := by
  simp only [Microservice.ofValue?, require_eq, Option.bind_eq_bind, Option.bind_eq_some_iff,
    Option.pure_def, Option.some.injEq] at h
  obtain ⟨fields, hsection, url, hurl, pattern, hpattern, timeout, htimeout, hs⟩ := h
  refine ⟨fields, hsection, ?_⟩
  simp [all, ← hs, hurl, hpattern, htimeout]

/-- The section under a name is read as it is, and what is missing as nothing. -/
theorem of_require {α : Type} {sections : Table} {group : String} {read : Value → Option α} {a : α}
    (h : sections.require group read = some a) :
    read ((Table.get? group sections).getD .nothing) = some a := by
  obtain ⟨v, hv, hread⟩ := Option.bind_eq_some_iff.1 h
  rwa [hv]

/-- Settings that are read are read section by section. -/
theorem reads_of_ofValue? (h : ofValue? v = some s) :
    ∀ f ∈ all, Reads f.group ((Table.get? f.group v.fields).getD .nothing) s := by
  simp only [ofValue?, Option.bind_eq_bind, Option.bind_eq_some_iff, Option.pure_def,
    Option.some.injEq] at h
  obtain ⟨server, hserver, log, hlog, session, hsession, database, hdatabase, files, hfiles,
    microservice, hmicroservice, rfl⟩ := h
  have hgroups : ∀ f ∈ all, f.group = "server" ∨ f.group = "log" ∨ f.group = "session" ∨
      f.group = "database" ∨ f.group = "files" ∨ f.group = "microservice" := by decide
  intro f hf
  rcases hgroups f hf with hg | hg | hg | hg | hg | hg <;> rw [hg]
  · exact reads_server (of_require hserver)
  · exact reads_log (of_require hlog)
  · exact reads_session (of_require hsession)
  · exact reads_database (of_require hdatabase)
  · exact reads_files (of_require hfiles)
  · exact reads_microservice (of_require hmicroservice)

end Sections

/-! ## What sources say of a setting -/

/-- What layers, the lowest first, say of a setting. -/
def saidBy? (f : Setting) (layers : List Table) : Option Value :=
  said? (names f.group) f.name (groupValues f.group layers)

/-- No setting is read from a table. -/
theorem read_table (fields : Table) : ∀ f ∈ all, f.read (some (.table fields)) = none := by
  simp [all, needed, optional, Value.text?, Value.optionalText?, Value.port?, Value.count?,
    Value.longCount?, Value.natural?, Value.texts?, Value.truth?]

/-- Each setting is what all layers say of it is read as. -/
theorem read_saidBy? {l : Layers} {s : Settings} (h : ofValue? l.value = some s) :
    ∀ f ∈ all, f.read (saidBy? f l.toList) = some (f.get s) := by
  intro f hf
  have hvalue : l.value = writeAll l.toList.flatten (.table []) := by
    rw [writeAll, List.foldl_flatten]
    rfl
  obtain ⟨fields, hsection, hread⟩ := reads_of_ofValue? h f hf
  rw [hvalue, group_writeAll] at hsection
  have hplain : ∀ inner, Table.get? f.name fields ≠ some (.table inner) := by
    intro inner hinner
    have hnone := hread f hf rfl
    rw [hinner, read_table inner f hf] at hnone
    cases hnone
  rw [← hread f hf rfl, get?_section_eq_said? hsection hplain]
  rfl

/-! ## Variables with names of their own -/

/-- What a variable that is not blank sets its key to: its text, or for the replicas the list of
the parts between its commas, without the blanks around them and without blank parts. -/
def content (variableName text : String) : Value :=
  if variableName = "DATABASE_REPLICAS" then .list ((commaList text).map .str) else .str text

/-- What the variable of a setting says, unless it is blank. -/
def given? (f : Setting) (vars : Variables) : Option Value :=
  f.variableName.bind fun variableName => (vars.notBlank? variableName).map (content variableName)

/-- All variables with names of their own, and the key that each sets. -/
def ownVariables : List (String × String) :=
  namedVariables ++ [("DATABASE_REPLICAS", "database.replicas")]

/-- The entry that a variable makes. -/
def setBy? (vars : Variables) (own : String × String) : Option (String × Value) :=
  (vars.notBlank? own.1).map fun text => (own.2, content own.1 text)

/-- Each variable makes an entry of its own. -/
theorem namedLayer_eq (vars : Variables) :
    namedLayer vars = ownVariables.filterMap (setBy? vars) := by
  have hnames : ∀ own ∈ namedVariables, own.1 ≠ "DATABASE_REPLICAS" := by decide
  have htexts : namedVariables.filterMap
        (fun own => (vars.notBlank? own.1).map fun text => (own.2, .str text)) =
      namedVariables.filterMap (setBy? vars) := by
    apply List.filterMap_congr
    intro own hown
    simp only [setBy?, content, if_neg (hnames own hown)]
  rw [namedLayer, ownVariables, List.filterMap_append, ← htexts]
  rfl

/-- Each variable sets the key of the setting whose variable it is. -/
theorem exists_pathOf_ownVariables : ∀ own ∈ ownVariables, ∃ g ∈ all,
    pathOf own.2 = [g.group, g.name] ∧ g.variableName = some own.1 := by decide +kernel

/-- A setting with a variable shares neither its key nor its variable with another one. -/
theorem same_key_iff : ∀ f ∈ all, ∀ g ∈ all, g.variableName.isSome = true →
    (g.group = f.group ∧ g.name = f.name ↔ f.variableName = g.variableName) := by decide +kernel

/-- What the variable of a setting says is nothing for another setting. -/
theorem bind_setBy? (vars : Variables) {f : Setting} (hf : f ∈ all) {own : String × String}
    (hown : own ∈ ownVariables) :
    ((setBy? vars own).bind fun entry => (inGroup? f.group entry).bind fun v =>
      Table.last? f.name v.fields) =
      if f.variableName = some own.1 then (vars.notBlank? own.1).map (content own.1)
      else none := by
  obtain ⟨g, hg, hpath, hvariable⟩ := exists_pathOf_ownVariables own hown
  have hiff := same_key_iff f hf g hg (by rw [hvariable]; rfl)
  rw [hvariable] at hiff
  rw [setBy?, ← if_congr hiff rfl rfl]
  cases vars.notBlank? own.1 with
  | none => simp
  | some text =>
    by_cases hgroup : g.group = f.group <;> by_cases hname : g.name = f.name <;>
      simp [inGroup?, hpath, hgroup, hname, Value.under, Value.fields, Table.last?]

/-- The one result that a search can have. -/
theorem findSome?_ite {α β : Type} [DecidableEq α] {a : α} {l : List α}
    (g : α → Option β) (h : a ∈ l) : l.findSome? (fun b => if a = b then g b else none) = g a := by
  cases hg : g a with
  | none =>
    refine List.findSome?_eq_none_iff.2 fun b _ => ?_
    split
    · subst a
      exact hg
    · rfl
  | some v =>
    induction l with
    | nil => cases h
    | cons b l ih =>
      rw [List.findSome?_cons]
      by_cases hb : a = b
      · rw [if_pos hb, ← hb, hg]
      · rw [if_neg hb]
        exact ih ((List.mem_cons.1 h).resolve_left hb)

/-- The values of the variables are tables. -/
theorem isTable_of_mem_named {group : String} {vars : Variables} {v : Value}
    (h : v ∈ groupValues group [namedLayer vars]) : v.isTable = true := by
  obtain ⟨entry, hentry, hv⟩ := List.mem_filterMap.1 h
  rw [List.mem_reverse, List.flatten_singleton, namedLayer_eq, List.mem_filterMap] at hentry
  obtain ⟨own, hown, hentry⟩ := hentry
  obtain ⟨text, -, rfl⟩ := Option.map_eq_some_iff.1 hentry
  obtain ⟨g, -, hpath, -⟩ := exists_pathOf_ownVariables own hown
  rw [inGroup?, hpath] at hv
  obtain ⟨-, hv⟩ := Option.ite_none_right_eq_some.1 hv
  rw [← Option.some.inj hv]
  rfl

/-- What all variables say of a setting is what its own one says. -/
theorem findSome?_named (vars : Variables) {f : Setting} (hf : f ∈ all) :
    ((groupValues f.group [namedLayer vars]).findSome? fun v => Table.last? f.name v.fields) =
      given? f vars := by
  have hmem : ∀ f ∈ all, ∀ name ∈ f.variableName,
      name ∈ ownVariables.reverse.map (·.1) := by decide
  have hsearch :
      ((groupValues f.group [namedLayer vars]).findSome? fun v => Table.last? f.name v.fields) =
      (ownVariables.reverse.map (·.1)).findSome? fun name =>
        if f.variableName = some name then (vars.notBlank? name).map (content name) else none := by
    -- A search is the head of all that can be found, and what is found of a variable is known.
    rw [groupValues, List.flatten_singleton, namedLayer_eq, ← List.filterMap_reverse,
      ← List.head?_filterMap, List.filterMap_filterMap, List.filterMap_filterMap,
      List.findSome?_map, ← List.head?_filterMap]
    congr 1
    exact List.filterMap_congr fun own hown => bind_setBy? vars hf (List.mem_reverse.1 hown)
  rw [hsearch, given?]
  cases hname : f.variableName with
  | none => simp
  | some name =>
    simp only [Option.some.injEq]
    exact findSome?_ite _ (hmem f hf name hname)

/-! ## The value that counts -/

/-- The layers below the variables with names of their own, the lowest first. -/
def Layers.lower (l : Layers) : List Table :=
  [Settings.toTable .default, l.portal, l.custom, l.prefixed]

theorem groupValues_append (group : String) (lower upper : List Table) :
    groupValues group (lower ++ upper) = groupValues group upper ++ groupValues group lower := by
  simp only [groupValues, List.flatten_append, List.reverse_append, List.filterMap_append]

/-- Each section has a setting that is needed and has no variable of its own. -/
theorem exists_needed : ∀ f ∈ all, ∃ r ∈ all, r.group = f.group ∧ r.variableName = none ∧
    (r.read none).isNone = true := by decide

/-- A setting is read from what its variable says, and if that is nothing from what the layers
below say. -/
theorem read_given_or_lower {l : Layers} {vars : Variables} {s : Settings}
    (hnamed : l.named = namedLayer vars) (h : ofValue? l.value = some s) :
    ∀ f ∈ all, f.read ((given? f vars).or (saidBy? f l.lower)) = some (f.get s) := by
  have hsaid : ∀ f, saidBy? f l.toList = said? (names f.group) f.name
      (groupValues f.group [namedLayer vars] ++ groupValues f.group l.lower) := by
    intro f
    rw [saidBy?, ← groupValues_append, ← hnamed]
    rfl
  have htables : ∀ f : Setting, ∀ v ∈ groupValues f.group [namedLayer vars], v.isTable = true :=
    fun f v hv => isTable_of_mem_named hv
  intro f hf
  have hlower : groupValues f.group [namedLayer vars] = [] ∨
      ∀ v ∈ (groupValues f.group l.lower).head?, v.isTable = true := by
    -- A value that is no table, with a variable on top of it, would hide the layers below from
    -- every setting of the section, and one of these has no variable and is needed.
    by_contra hcontra
    obtain ⟨hne, hhead⟩ := not_or.1 hcontra
    cases hbelow : groupValues f.group l.lower with
    | nil => simp [hbelow] at hhead
    | cons v below =>
      have hv : v.isTable = false := by simpa [hbelow] using hhead
      obtain ⟨r, hr, hgroup, hvariable, hnone⟩ := exists_needed f hf
      have hread := read_saidBy? h r hr
      rw [hsaid, hgroup, hbelow, said?_append_of_not_isTable (htables f) hne hv, ← hgroup,
        findSome?_named vars hr, given?, hvariable, Option.bind_none] at hread
      rw [hread] at hnone
      cases hnone
  rw [← findSome?_named vars hf, saidBy?, ← said?_append (htables f) hlower, ← hsaid]
  exact read_saidBy? h f hf

/-! ## Loading -/

theorem settings_eq_ok {l : Layers} {s : Settings} (h : l.settings = .ok s) :
    ofValue? l.value = some s ∧ s.check = .ok () := by
  rw [Layers.settings] at h
  cases hvalue : ofValue? l.value with
  | none => simp [hvalue] at h
  | some t =>
    cases hcheck : t.check with
    | error reason => simp [hvalue, hcheck] at h
    | ok _ =>
      simp only [hvalue, hcheck, Except.ok.injEq] at h
      subst h
      exact ⟨rfl, hcheck⟩

theorem load_eq_ok {s : Surroundings} {cfg : Settings} (h : load s = .ok cfg) :
    ∃ l, s.layers = .ok l ∧ l.settings = .ok cfg := by
  rw [load] at h
  cases hl : s.layers with
  | error e => simp [hl, bind, Except.bind] at h
  | ok l => exact ⟨l, rfl, by rwa [hl] at h⟩

theorem layers_eq_ok {s : Surroundings} {l : Layers} (h : s.layers = .ok l) :
    fileLayer s.files "portal" = .ok l.portal ∧
      ((s.allVariables.get? "PORTAL_CONFIG").map (fileLayer s.files)).getD (.ok []) =
        .ok l.custom ∧
      l.prefixed = prefixedLayer s.allVariables ∧ l.named = namedLayer s.allVariables := by
  rw [Surroundings.layers] at h
  cases hportal : fileLayer s.files "portal" with
  | error e => simp [hportal, bind, Except.bind] at h
  | ok portal =>
    have hcustom :
        ∃ custom, ((s.allVariables.get? "PORTAL_CONFIG").map (fileLayer s.files)).getD (.ok []) =
          .ok custom ∧
          l = ⟨portal, custom, prefixedLayer s.allVariables, namedLayer s.allVariables⟩ := by
      cases hname : s.allVariables.get? "PORTAL_CONFIG" with
      | none =>
        simp only [hportal, hname, bind, Except.bind, pure, Except.pure, Except.ok.injEq] at h
        exact ⟨[], rfl, h.symm⟩
      | some name =>
        cases hfile : fileLayer s.files name with
        | error e => simp [hportal, hname, hfile, bind, Except.bind] at h
        | ok custom =>
          simp only [hportal, hname, hfile, bind, Except.bind, pure, Except.pure,
            Except.ok.injEq] at h
          exact ⟨custom, hfile, h.symm⟩
    obtain ⟨custom, hcustom, rfl⟩ := hcustom
    exact ⟨rfl, hcustom, rfl, rfl⟩

/-! ## Changes of one variable -/

/-- All variables but one. -/
def Variables.others (name : String) (vars : Variables) : Variables := vars.filter (·.1 ≠ name)

section Changes

variable {vars vars' : Variables} {name : String}

theorem Variables.get?_others {other : String} (hother : other ≠ name) :
    (vars.others name).get? other = vars.get? other := by
  rw [get?, get?, others, List.find?_filter]
  congr 2
  funext entry
  by_cases hentry : entry.1 = other <;> simp [hentry, hother]

theorem given?_others {f : Setting} (hf : f.variableName ≠ some name) :
    given? f (vars.others name) = given? f vars := by
  rw [given?, given?]
  cases hvariable : f.variableName with
  | none => rfl
  | some other =>
    have hother : other ≠ name := fun heq => hf (by rw [hvariable, heq])
    rw [Option.bind_some, Option.bind_some, Variables.notBlank?, Variables.notBlank?,
      Variables.get?_others hother]

theorem prefixedLayer_others (hkey : keyOfVariable? name = none) :
    prefixedLayer (vars.others name) = prefixedLayer vars := by
  rw [prefixedLayer, prefixedLayer, Variables.others, List.filterMap_filter]
  apply List.filterMap_congr
  intro entry _
  by_cases hentry : entry.1 = name <;> simp [hentry, hkey]

/-- The name of a variable that has a name of its own is not made from a key, and it names no
file. -/
theorem own_not_prefixed : ∀ name ∈ ownVariables.map (·.1), keyOfVariable? name = none ∧
    name ≠ "PORTAL_CONFIG" := by decide +kernel

end Changes

/-- A variable with a name of its own does not count in the layers below. -/
theorem lower_eq_of_others_eq {s s' : Surroundings} {l l' : Layers} (h : s.layers = .ok l)
    (h' : s'.layers = .ok l') {name : String} (hname : name ∈ ownVariables.map (·.1))
    (hfiles : s'.files = s.files)
    (hothers : s'.allVariables.others name = s.allVariables.others name) :
    l'.lower = l.lower := by
  obtain ⟨hkey, hconfig⟩ := own_not_prefixed name hname
  obtain ⟨hportal, hcustom, hprefixed, -⟩ := layers_eq_ok h
  obtain ⟨hportal', hcustom', hprefixed', -⟩ := layers_eq_ok h'
  have hp : l'.portal = l.portal := by
    rw [hfiles, hportal] at hportal'
    exact (Except.ok.inj hportal').symm
  have hc : l'.custom = l.custom := by
    rw [hfiles, ← Variables.get?_others hconfig.symm, hothers, Variables.get?_others hconfig.symm,
      hcustom] at hcustom'
    exact (Except.ok.inj hcustom').symm
  have hpre : l'.prefixed = l.prefixed := by
    rw [hprefixed', ← prefixedLayer_others hkey, hothers, prefixedLayer_others hkey, hprefixed]
  rw [Layers.lower, Layers.lower, hp, hc, hpre]

/-- Each setting of a loaded configuration comes from what its variable says, and if that is
nothing from what the layers below say. -/
theorem read_of_load {s : Surroundings} {cfg : Settings} (h : load s = .ok cfg) :
    ∃ l, s.layers = .ok l ∧
      ∀ f ∈ all, f.read ((given? f s.allVariables).or (saidBy? f l.lower)) = some (f.get cfg) := by
  obtain ⟨l, hl, hsettings⟩ := load_eq_ok h
  exact ⟨l, hl, read_given_or_lower (layers_eq_ok hl).2.2.2 (settings_eq_ok hsettings).1⟩

/-- Loaded settings are fit to be used, and each of them is what its value is read as: what its own
variable says, unless that is missing or blank, and otherwise what the highest of the layers below
says that sets its key. A change of one variable changes the setting that it names, and no other
one. -/
theorem load_layered {s : Surroundings} {cfg : Settings} (h : load s = .ok cfg) :
    cfg.check = .ok () ∧
      (∃ l, s.layers = .ok l ∧
        ∀ f ∈ all, f.read ((given? f s.allVariables).or (saidBy? f l.lower)) = some (f.get cfg)) ∧
      (∀ other, (∀ f ∈ all, f.get other = f.get cfg) → other = cfg) ∧
      ∀ name ∈ ownVariables.map (·.1), ∀ s' cfg', load s' = .ok cfg' → s'.files = s.files →
        s'.allVariables.others name = s.allVariables.others name →
        ∀ f ∈ all, f.variableName ≠ some name → f.get cfg' = f.get cfg := by
  obtain ⟨l, hl, hsettings⟩ := load_eq_ok h
  obtain ⟨l₁, hl₁, hread⟩ := read_of_load h
  refine ⟨(settings_eq_ok hsettings).2, ⟨l₁, hl₁, hread⟩, fun other => ext_of_all, ?_⟩
  intro name hname s' cfg' h' hfiles hothers f hf hvariable
  obtain ⟨l', hl', hread'⟩ := read_of_load h'
  have hgiven : given? f s'.allVariables = given? f s.allVariables := by
    rw [← given?_others hvariable, hothers, given?_others hvariable]
  have hsame := hread' f hf
  rw [hgiven, lower_eq_of_others_eq hl₁ hl' hname hfiles hothers, hread f hf] at hsame
  exact (Option.some.inj hsame).symm

/-- A file that sets the host of the database, variables that set the host of the database, the
port and the replicas, and one that is blank. -/
def sources (host : String) : Surroundings where
  environment := [("DATABASE_HOST", host), ("PORT", " "), ("PORTAL__SERVER__PORT", "9000"),
    ("DATABASE_REPLICAS", "db2, ,db3:5433")]
  files := [("portal.toml", "[database]\nhost = \"db0\"\n")]

/-- What comes of them. -/
def sourced (host : String) : Settings :=
  { Settings.default with
    server.port := 9000
    database.host := host
    database.replicas := ["db2", "db3:5433"] }

/-- Where the variable for the host is blank, the file gives the host, and all else stays as it
is. -/
theorem load_layered_host :
    load (sources "db1") = .ok (sourced "db1") ∧ load (sources " ") = .ok (sourced "db0") ∧
      (sourced "db1").check = .ok () ∧
      ∀ f ∈ all, f.variableName ≠ some "DATABASE_HOST" →
        f.get (sourced "db0") = f.get (sourced "db1") := by
  have hset : load (sources "db1") = .ok (sourced "db1") := by decide +kernel
  have hblank : load (sources " ") = .ok (sourced "db0") := by decide +kernel
  obtain ⟨hcheck, -, -, hframe⟩ := load_layered hset
  exact ⟨hset, hblank, hcheck,
    hframe "DATABASE_HOST" (by decide) (sources " ") (sourced "db0") hblank rfl
      (by decide +kernel)⟩

end Settings

end Intranet
