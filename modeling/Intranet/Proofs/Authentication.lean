import Intranet.Proofs.Cookies
import Intranet.Proofs.Memory
import Intranet.Rehearsal
import Mathlib.Data.List.Induction

/-!
# Who is signed in, over whole runs

A run is any list of requests and pauses, served one after the other by a portal that starts with
an empty store in memory. Who a request is signed in as is then a matter of the events alone: it
presents the identifier of a sign-in that is not too long ago and was not ended in the meantime.

* `Grant` — what signing in hands out; `Issues` and `Ends` — requests that hand one out and that
  end one;
* `Granted` — in a run a grant was handed out and not ended since;
* `Sound` — the invariant: every record in the store is that of a grant under an identifier that
  was drawn;
* `inForce_request` — what one request does to the record of a grant;
* `inForce_iff_granted` — over a run, the record is in the store exactly if the grant is in force;
* `authentication_exact` — the same, read off the session that is found for a request.
-/

namespace Intranet

open Intranet.Http (Request Response)
open Intranet.Session (World Memory Storing Finds Filed Id)

/-! ## Runs -/

/-- What happens to a running portal. -/
inductive Event where
  | request (r : Request)
  /-- Nothing for so many milliseconds. -/
  | pause (ms : Nat)

/-- The first `n` identifiers are drawn apart: no two of them are the same. -/
def Session.Keeper.DrawsApart (k : Session.Keeper) (n : Nat) : Prop :=
  ∀ i j, i < n → j < n → k.ids i = k.ids j → i = j

theorem Session.Keeper.DrawsApart.mono {k : Session.Keeper} {m n : Nat} (h : k.DrawsApart n)
    (hmn : m ≤ n) : k.DrawsApart m :=
  fun i j hi hj => h i j (Nat.lt_of_lt_of_le hi hmn) (Nat.lt_of_lt_of_le hj hmn)

namespace Portal

/-- The world after an event. -/
def step (p : Portal) (w : World Memory) : Event → World Memory
  | .request r => ((p.serve Memory.store r).exec w).2
  | .pause ms => { w with clock := w.clock + ms }

/-- The world after events, one after the other. -/
def run (p : Portal) (w : World Memory) (es : List Event) : World Memory := es.foldl p.step w

theorem run_concat (p : Portal) (w : World Memory) (es : List Event) (e : Event) :
    p.run w (es ++ [e]) = p.step (p.run w es) e := by
  simp [run, List.foldl_append]

section AnyStore

variable {σ : Type}

/-- The world after an event, with any store. -/
def stepOn (p : Portal) (s : Session.Store σ) (w : World σ) : Event → World σ
  | .request r => ((p.serve s r).exec w).2
  | .pause ms => { w with clock := w.clock + ms }

/-- The world after events, one after the other, with any store. -/
def runOn (p : Portal) (s : Session.Store σ) (w : World σ) (es : List Event) : World σ :=
  es.foldl (p.stepOn s) w

/-- The requests of a run, each with the world that it comes to. -/
def turns (p : Portal) (s : Session.Store σ) (w : World σ) : List Event → List (Request × World σ)
  | [] => []
  | .request r :: es => (r, w) :: turns p s (p.stepOn s w (.request r)) es
  | .pause ms :: es => turns p s (p.stepOn s w (.pause ms)) es

theorem length_turns_le (p : Portal) (s : Session.Store σ) (w : World σ) (es : List Event) :
    (p.turns s w es).length ≤ es.length := by
  induction es generalizing w with
  | nil => exact Nat.le_refl 0
  | cons e es ih =>
    cases e with
    | request r => exact Nat.succ_le_succ (ih _)
    | pause ms => exact Nat.le_succ_of_le (ih _)

end AnyStore

/-! ## Grants -/

/-- What signing in hands out: the identifier of a session, for a person with a password, at a
time. -/
structure Grant where
  id : Id
  user : Principal
  password : String
  time : Nat

/-- The request signs the person of a grant in and sends the cookie of its identifier. -/
def Issues (p : Portal) (w : World Memory) (r : Request) (g : Grant) : Prop :=
  p.signsIn? w.ledger.directoryCalls r = some (g.user, g.password) ∧ g.time = w.clock ∧
    ∃ response, ((p.serve Memory.store r).exec w).1 = .ok response ∧
      ("set-cookie", p.keeper.sessionCookie g.id) ∈ response.headers

/-- The request presents an identifier and signs out or signs someone in. -/
def Ends (p : Portal) (w : World Memory) (r : Request) (id : Id) : Prop :=
  p.keeper.sessionId? r.cookieHeaders = some id ∧
    (SignsOut r ∨ p.signsIn? w.ledger.directoryCalls r ≠ none)

/-- In the course of the events a grant was issued, and no request ended it afterwards. -/
def Granted (p : Portal) (w : World Memory) (es : List Event) (g : Grant) : Prop :=
  ∃ before r after, es = before ++ .request r :: after ∧ p.Issues (p.run w before) r g ∧
    ∀ between r' rest, after = between ++ .request r' :: rest →
      ¬p.Ends (p.run w (before ++ .request r :: between)) r' g.id

/-- When the grant ends, unless it is ended before. -/
def Grant.deadline (p : Portal) (g : Grant) : Nat := g.time + p.keeper.ttl * 1000

variable {p : Portal} {w : World Memory} {r : Request} {g : Grant}

theorem not_granted_nil : ¬p.Granted w [] g := by
  rintro ⟨before, r, after, hes, -⟩
  simp at hes

/-- One more event: a grant is in force if it was and is not ended, or if it is issued. -/
theorem granted_concat {es : List Event} {e : Event} :
    p.Granted w (es ++ [e]) g ↔
      (p.Granted w es g ∧ ∀ r, e = .request r → ¬p.Ends (p.run w es) r g.id) ∨
        ∃ r, e = .request r ∧ p.Issues (p.run w es) r g := by
  constructor
  · rintro ⟨before, r, after, hes, hissues, hends⟩
    cases after using List.reverseRecOn with
    | nil =>
      obtain ⟨rfl, he⟩ := List.append_inj' hes rfl
      exact .inr ⟨r, List.singleton_inj.1 he, hissues⟩
    | append_singleton after last =>
      have hes' : es ++ [e] = (before ++ .request r :: after) ++ [last] := by
        rw [hes, List.append_assoc, List.cons_append]
      obtain ⟨rfl, he⟩ := List.append_inj' hes' rfl
      obtain rfl := List.singleton_inj.1 he
      refine .inl ⟨⟨before, r, after, rfl, hissues, ?_⟩, ?_⟩
      · intro between r' rest hafter
        exact hends between r' (rest ++ [e]) (by rw [hafter, List.append_assoc, List.cons_append])
      · rintro r' rfl
        exact hends after r' [] rfl
  · rintro (⟨⟨before, r, after, rfl, hissues, hends⟩, hlast⟩ | ⟨r, rfl, hissues⟩)
    · refine ⟨before, r, after ++ [e], by rw [List.append_assoc, List.cons_append], hissues, ?_⟩
      intro between r' rest hafter
      cases rest using List.reverseRecOn with
      | nil =>
        obtain ⟨rfl, he⟩ := List.append_inj' hafter rfl
        exact hlast r' (List.singleton_inj.1 he)
      | append_singleton rest last =>
        have hafter' : after ++ [e] = (between ++ .request r' :: rest) ++ [last] := by
          rw [hafter, List.append_assoc, List.cons_append]
        exact hends between r' rest (List.append_inj' hafter' rfl).1
    · exact ⟨es, r, [], rfl, hissues, by simp⟩

/-! ## The invariant -/

/-- The record of a grant, filed until the grant ends. -/
structure Keeps (p : Portal) (g : Grant) (filed : Filed) : Prop where
  id : filed.record.id = g.id
  bears : Bears filed.record g.user g.password
  deadline : filed.deadline = g.deadline p

/-- No call to the store is refused, and each record in it is that of a grant, under an identifier
that was drawn. -/
structure Sound (p : Portal) (w : World Memory) : Prop where
  outage : w.outage = .none
  drawn : ∀ id filed, w.store.find? id = some filed → ∃ n, n < w.drawn ∧ id = p.keeper.ids n
  granted : ∀ id filed, w.store.find? id = some filed → ∃ g : Grant, g.id = id ∧ Keeps p g filed

theorem Sound.orderly (hs : Sound p w) : w.store.Orderly := by
  intro id filed hfind
  obtain ⟨g, rfl, hkeeps⟩ := hs.granted id filed hfind
  exact hkeeps.id

theorem sound_start (p : Portal) (clock : Nat) : Sound p (World.start Memory.empty clock) where
  outage := rfl
  drawn := by
    intro id filed h
    cases h
  granted := by
    intro id filed h
    cases h

/-- A store that has nothing but what it had before stays sound. -/
theorem Sound.mono {w₁ : World Memory} (hs : Sound p w) (hw : w.Onward w₁)
    (hstore : ∀ id filed, w₁.store.find? id = some filed → w.store.find? id = some filed) :
    Sound p w₁ where
  outage := hw.outage.trans hs.outage
  drawn := by
    intro id filed hfind
    obtain ⟨n, hn, hid⟩ := hs.drawn id filed (hstore id filed hfind)
    exact ⟨n, Nat.lt_of_lt_of_le hn hw.drawn, hid⟩
  granted := fun id filed hfind => hs.granted id filed (hstore id filed hfind)

theorem Sound.pause (hs : Sound p w) (ms : Nat) : Sound p (p.step w (.pause ms)) :=
  ⟨hs.outage, hs.drawn, hs.granted⟩

/-! ## What a request does -/

/-- What serving a request can do to the store: look the session up; remove it, because the request
ends it without issuing another one; or remove it and file the record of a grant that it issues. -/
inductive Served (p : Portal) (w : World Memory) (r : Request) (w₁ : World Memory) : Prop
  | looked (store : w₁.store = p.keeper.looked r.cookieHeaders w)
      (issues : ∀ g, ¬p.Issues w r g) (ends : ∀ id, ¬p.Ends w r id)
  | cleared (store : w₁.store = p.keeper.cleared r.cookieHeaders w)
      (issues : ∀ g, ¬p.Issues w r g)
      (ends : ∀ id, p.Ends w r id ↔ p.keeper.sessionId? r.cookieHeaders = some id)
  | issued (n : Nat) (g : Grant) (filed : Filed) (low : w.drawn ≤ n) (high : n < w₁.drawn)
      (id : g.id = p.keeper.ids n) (time : g.time = w.clock)
      (found : w₁.store.find? g.id = some filed) (keeps : Keeps p g filed)
      (rest : ∀ id, id ≠ g.id →
        w₁.store.find? id = (p.keeper.cleared r.cookieHeaders w).find? id)
      (issues : ∀ g', p.Issues w r g' ↔ g'.user = g.user ∧ g'.password = g.password ∧
        g'.time = g.time ∧ p.keeper.sessionCookie g'.id = p.keeper.sessionCookie g.id)
      (ends : ∀ id, p.Ends w r id ↔ p.keeper.sessionId? r.cookieHeaders = some id)

/-- Every request does one of these. -/
theorem served (hreg : p.registry = Graphql.portalRegistry) (hout : w.outage = .none) :
    Served p w r (p.step w (.request r)) := by
  cases hin : p.signsIn? w.ledger.directoryCalls r with
  | none =>
    have hissues (g : Grant) : ¬p.Issues w r g := by
      rintro ⟨hsigns, -⟩
      rw [hin] at hsigns
      cases hsigns
    by_cases hleave : SignsOut r
    · refine .cleared (serve_signOut hout hleave) hissues fun id => ?_
      exact ⟨fun h => h.1, fun h => ⟨h, .inl hleave⟩⟩
    · refine .looked (serve_other hreg hout hin hleave) hissues fun id => ?_
      rintro ⟨-, h | h⟩
      · exact hleave h
      · exact h hin
  | some found =>
    obtain ⟨user, password⟩ := found
    have hends (id : Id) : p.Ends w r id ↔ p.keeper.sessionId? r.cookieHeaders = some id := by
      refine ⟨fun h => h.1, fun h => ⟨h, .inr ?_⟩⟩
      rw [hin]
      exact Option.some_ne_none _
    rcases serve_signIn hout hin with ⟨-, ⟨c, hresult⟩, hstore⟩ |
      ⟨n, record, response, hlow, hhigh, hresult, hcookies, hsave, hid, hbears⟩
    · refine .cleared hstore (fun g => ?_) hends
      rintro ⟨-, -, response, hok, -⟩
      rw [hresult] at hok
      cases hok
    · obtain ⟨hfound, hrest⟩ := Session.Memory.find?_of_save hsave
      rw [hid] at hfound hrest
      refine .issued n ⟨p.keeper.ids n, user, password, w.clock⟩ _ hlow hhigh rfl rfl hfound
        ⟨hid, hbears, rfl⟩ hrest (fun g => ?_) hends
      have hsent (cookie : String) :
          ("set-cookie", cookie) ∈ response.headers ↔
            cookie = p.keeper.sessionCookie (p.keeper.ids n) := by
        have hmem : ("set-cookie", cookie) ∈ response.setCookies ↔
            ("set-cookie", cookie) ∈ response.headers := by
          simp [Response.setCookies]
        rw [← hmem, hcookies]
        simp
      constructor
      · rintro ⟨hsigns, htime, response', hok, hcookie⟩
        rw [hin] at hsigns
        rw [hresult] at hok
        cases hok
        cases hsigns
        exact ⟨rfl, rfl, htime, (hsent _).1 hcookie⟩
      · rintro ⟨huser, hpassword, htime, hcookie⟩
        exact ⟨by rw [hin, huser, hpassword], htime, response, hresult, (hsent _).2 hcookie⟩

theorem Sound.request (hreg : p.registry = Graphql.portalRegistry) (hs : Sound p w) (r : Request) :
    Sound p (p.step w (.request r)) := by
  have hw : w.Onward (p.step w (.request r)) := onward_serve hreg Memory.store r w
  cases served (r := r) hreg hs.outage with
  | looked store issues ends =>
    refine hs.mono hw fun id filed hfind => ?_
    rw [store] at hfind
    exact Session.find?_of_looked hfind
  | cleared store issues ends =>
    refine hs.mono hw fun id filed hfind => ?_
    rw [store] at hfind
    exact Session.find?_of_cleared hfind
  | issued n g filed low high id time found keeps rest issues ends =>
    have hold (other : Id) (old : Filed) (hne : other ≠ g.id)
        (hfind : (p.step w (.request r)).store.find? other = some old) :
        w.store.find? other = some old := by
      rw [rest other hne] at hfind
      exact Session.find?_of_cleared hfind
    refine ⟨hw.outage.trans hs.outage, fun other old hfind => ?_, fun other old hfind => ?_⟩
    · by_cases hne : other = g.id
      · exact ⟨n, high, hne.trans id⟩
      · obtain ⟨i, hi, hother⟩ := hs.drawn other old (hold other old hne hfind)
        exact ⟨i, Nat.lt_of_lt_of_le hi hw.drawn, hother⟩
    · by_cases hne : other = g.id
      · subst hne
        rw [found] at hfind
        cases hfind
        exact ⟨g, rfl, keeps⟩
      · exact hs.granted other old (hold other old hne hfind)

/-- The record of a grant is in the store and has not expired. -/
def InForce (p : Portal) (w : World Memory) (g : Grant) : Prop :=
  ∃ filed, w.store.Holds w.clock g.id filed ∧ Keeps p g filed

/-- The cookie of an identifier is that of no other. -/
def Presentable (p : Portal) (id : Id) : Prop :=
  ∀ other, p.keeper.sessionCookie other = p.keeper.sessionCookie id → other = id

/-- Two grants of the same record are the same. -/
theorem Keeps.unique {g g' : Grant} {filed : Filed} (h : Keeps p g filed) (h' : Keeps p g' filed) :
    g' = g := by
  have huser : some g'.user = some g.user := h'.bears.principal.symm.trans h.bears.principal
  have hpassword : some g'.password = some g.password :=
    h'.bears.credential.symm.trans h.bears.credential
  have htime : g'.deadline p = g.deadline p := h'.deadline.symm.trans h.deadline
  have hid : g'.id = g.id := h'.id.symm.trans h.id
  obtain ⟨id, user, password, time⟩ := g
  obtain ⟨id', user', password', time'⟩ := g'
  simp only [Grant.deadline, Option.some.injEq, Nat.add_right_cancel_iff] at *
  subst huser hpassword htime hid
  rfl

/-- Once the session of a request is removed, the grants in force are those that it does not
present. -/
theorem holds_cleared_and_keeps (hs : Sound p w) :
    (∃ filed, (p.keeper.cleared r.cookieHeaders w).Holds w.clock g.id filed ∧ Keeps p g filed) ↔
      p.InForce w g ∧ p.keeper.sessionId? r.cookieHeaders ≠ some g.id := by
  simp only [Session.holds_cleared hs.orderly]
  constructor
  · rintro ⟨filed, ⟨hne, hholds⟩, hkeeps⟩
    exact ⟨⟨filed, hholds, hkeeps⟩, hne⟩
  · rintro ⟨⟨filed, hholds, hkeeps⟩, hne⟩
    exact ⟨filed, ⟨hne, hholds⟩, hkeeps⟩

/-- **One request.** The record of a grant is in the store after a request if it was before and the
request does not end it, or if the request issues it. -/
theorem inForce_request (hreg : p.registry = Graphql.portalRegistry) (hs : Sound p w)
    (hids : p.keeper.DrawsApart (p.step w (.request r)).drawn) (hg : p.Presentable g.id) :
    p.InForce (p.step w (.request r)) g ↔
      (p.InForce w g ∧ ¬p.Ends w r g.id) ∨ (p.Issues w r g ∧ w.clock < g.deadline p) := by
  have hclock : (p.step w (.request r)).clock = w.clock :=
    (onward_serve hreg Memory.store r w).clock
  have hafter : p.InForce (p.step w (.request r)) g ↔
      ∃ filed, (p.step w (.request r)).store.Holds w.clock g.id filed ∧ Keeps p g filed := by
    rw [InForce, hclock]
  rw [hafter]
  cases served (r := r) hreg hs.outage with
  | looked store issues ends =>
    simp only [store, Session.holds_looked, issues, ends, not_false_eq_true, and_true, false_and,
      or_false]
    exact Iff.rfl
  | cleared store issues ends =>
    simp only [store, holds_cleared_and_keeps hs, issues, ends, false_and, or_false, ne_eq]
  | issued n new filed low high id time found keeps rest issues ends =>
    by_cases hnew : g.id = new.id
    · -- a fresh identifier: the store had nothing under it
      have hnone (old : Filed) : w.store.find? g.id ≠ some old := by
        intro hfind
        obtain ⟨i, hi, hdrawn⟩ := hs.drawn _ _ hfind
        have hi' : i < n := Nat.lt_of_lt_of_le hi low
        have hsame : i = n :=
          hids i n (Nat.lt_trans hi' high) high (hdrawn.symm.trans (hnew.trans id))
        omega
      constructor
      · rintro ⟨held, ⟨hfind, hlt⟩, hkeeps⟩
        rw [hnew, found] at hfind
        cases hfind
        have hsame : g = new := keeps.unique hkeeps
        subst hsame
        exact .inr ⟨(issues g).2 ⟨rfl, rfl, rfl, rfl⟩, keeps.deadline ▸ hlt⟩
      · rintro (⟨⟨old, ⟨hfind, -⟩, -⟩, -⟩ | ⟨hissues, hlt⟩)
        · exact absurd hfind (hnone old)
        · obtain ⟨huser, hpassword, htime, -⟩ := (issues g).1 hissues
          have hsame : g = new := by
            obtain ⟨id, user, password, time⟩ := g
            obtain ⟨id', user', password', time'⟩ := new
            simp only at *
            subst hnew huser hpassword htime
            rfl
          subst hsame
          exact ⟨filed, ⟨found, keeps.deadline ▸ hlt⟩, keeps⟩
    · have hissues : ¬p.Issues w r g := by
        intro h
        exact hnew (hg _ ((issues g).1 h).2.2.2.symm).symm
      have hholds (old : Filed) :
          (p.step w (.request r)).store.Holds w.clock g.id old ↔
            (p.keeper.cleared r.cookieHeaders w).Holds w.clock g.id old := by
        unfold Session.Memory.Holds
        rw [rest g.id hnew]
      simp only [hholds, holds_cleared_and_keeps hs, hissues, ends, false_and, or_false, ne_eq]

/-! ## Whole runs -/

section Runs

variable {clock : Nat} {es : List Event}

/-- The world at the end of a run that starts with an empty store. -/
def runFrom (p : Portal) (clock : Nat) (es : List Event) : World Memory :=
  p.run (World.start Memory.empty clock) es

theorem sound_runFrom (hreg : p.registry = Graphql.portalRegistry) (clock : Nat)
    (es : List Event) : Sound p (p.runFrom clock es) := by
  induction es using List.reverseRecOn with
  | nil => exact sound_start p clock
  | append_singleton es e ih =>
    rw [runFrom, run_concat]
    cases e with
    | request r => exact Sound.request hreg ih r
    | pause ms => exact ih.pause ms

/-- **Every run.** The record of a grant is in the store exactly if the grant was issued, not ended
since, and its time is not over. -/
theorem inForce_iff_granted (hreg : p.registry = Graphql.portalRegistry)
    (hids : p.keeper.DrawsApart (p.runFrom clock es).drawn) (hg : p.Presentable g.id) :
    p.InForce (p.runFrom clock es) g ↔
      p.Granted (World.start Memory.empty clock) es g ∧
        (p.runFrom clock es).clock < g.deadline p := by
  induction es using List.reverseRecOn with
  | nil =>
    constructor
    · rintro ⟨filed, ⟨hfind, -⟩, -⟩
      cases hfind
    · rintro ⟨hgranted, -⟩
      exact absurd hgranted not_granted_nil
  | append_singleton es e ih =>
    rw [runFrom, run_concat] at hids ⊢
    rw [granted_concat]
    cases e with
    | request r =>
      have hw : (p.runFrom clock es).Onward (p.step (p.runFrom clock es) (.request r)) :=
        onward_serve hreg Memory.store r _
      have ih := ih (hids.mono hw.drawn)
      have hstep := inForce_request hreg (sound_runFrom hreg clock es) hids hg
      have hclock : (p.step (p.runFrom clock es) (.request r)).clock =
          (p.runFrom clock es).clock :=
        hw.clock
      show p.InForce (p.step (p.runFrom clock es) (.request r)) g ↔ _
      rw [hstep, ih]
      show _ ↔ _ ∧ (p.step (p.runFrom clock es) (.request r)).clock < _
      rw [hclock]
      simp only [Event.request.injEq, forall_eq', exists_eq_left']
      show (_ ∧ ¬p.Ends (p.runFrom clock es) r g.id) ∨ (p.Issues (p.runFrom clock es) r g ∧ _) ↔ _
      constructor
      · rintro (⟨⟨hgranted, hlt⟩, hends⟩ | ⟨hissues, hlt⟩)
        · exact ⟨.inl ⟨hgranted, hends⟩, hlt⟩
        · exact ⟨.inr hissues, hlt⟩
      · rintro ⟨⟨hgranted, hends⟩ | hissues, hlt⟩
        · exact .inl ⟨⟨hgranted, hlt⟩, hends⟩
        · exact .inr ⟨hissues, hlt⟩
    | pause ms =>
      have ih := ih hids
      simp only [reduceCtorEq, false_implies, implies_true, and_true, false_and, exists_false,
        or_false]
      constructor
      · rintro ⟨filed, ⟨hfind, hlt⟩, hkeeps⟩
        have hlater : (p.runFrom clock es).clock + ms < g.deadline p := hkeeps.deadline ▸ hlt
        have hearlier : (p.runFrom clock es).clock < filed.deadline := by
          rw [hkeeps.deadline]
          omega
        exact ⟨(ih.1 ⟨filed, ⟨hfind, hearlier⟩, hkeeps⟩).1, hlater⟩
      · rintro ⟨hgranted, hlt⟩
        have hlater : (p.runFrom clock es).clock + ms < g.deadline p := hlt
        obtain ⟨filed, ⟨hfind, -⟩, hkeeps⟩ := ih.2 ⟨hgranted, by omega⟩
        exact ⟨filed, ⟨hfind, hkeeps.deadline ▸ hlater⟩, hkeeps⟩

/-- The session found for the cookies of a request has a principal exactly if the store has a
record of that principal for it, and then the session is that of the record. -/
theorem finds_iff_live {headers : List String} {h : Session.Handle} {user : Principal}
    (hout : w.outage = .none) :
    Finds p.keeper Memory.store headers w h ∧ h.principal = some user ↔
      ∃ record, p.keeper.live? headers w = some record ∧ record.principal = some user ∧
        h = .ofRecord record := by
  obtain ⟨w₁, -, hcases⟩ := Session.resolve_memory p.keeper headers hout
  constructor
  · rintro ⟨⟨w₂, hf⟩, huser⟩
    rcases hcases with ⟨h', ho, hf'⟩ | ⟨-, -, c, hf'⟩
    · rw [hf] at hf'
      cases hf'
      cases ho with
      | found hlive => exact ⟨_, hlive, huser, rfl⟩
      | started hlive => cases huser
    · rw [hf] at hf'
      cases hf'
  · rintro ⟨record, hlive, huser, rfl⟩
    rcases hcases with ⟨h', ho, hf⟩ | ⟨hnone, -⟩
    · cases ho with
      | found hlive' =>
        rw [hlive] at hlive'
        cases hlive'
        exact ⟨⟨w₁, hf⟩, huser⟩
      | started hnone =>
        rw [hlive] at hnone
        cases hnone
    · rw [hlive] at hnone
      cases hnone

/-- A session with a principal is that of a grant in force, and it shows what the grant handed
out. -/
theorem inForce_of_finds (hs : Sound p w) {headers : List String} {h : Session.Handle}
    {user : Principal} (hf : Finds p.keeper Memory.store headers w h)
    (huser : h.principal = some user) :
    ∃ g, p.keeper.sessionId? headers = some g.id ∧ p.InForce w g ∧ g.user = user ∧
      h.isAdmin = user.isAdmin ∧ h.credential = some g.password := by
  obtain ⟨record, hlive, hrecord, rfl⟩ := (finds_iff_live hs.outage).1 ⟨hf, huser⟩
  obtain ⟨id, deadline, hid, hholds⟩ := Session.live?_eq_some.1 hlive
  obtain ⟨g, rfl, hkeeps⟩ := hs.granted id _ hholds.1
  have hsame : some g.user = some user := hkeeps.bears.principal.symm.trans hrecord
  obtain rfl : g.user = user := Option.some.inj hsame
  refine ⟨g, hid, ⟨_, hholds, hkeeps⟩, rfl, ?_, hkeeps.bears.credential⟩
  have hprincipal : (Session.Handle.ofRecord record).principal = some g.user := hrecord
  have hclaim : (Session.Handle.ofRecord record).claim Session.adminClaim =
      some (.bool g.user.isAdmin) := hkeeps.bears.admin
  simp [Session.Handle.isAdmin, hprincipal, hclaim, Json.bool?]

theorem finds_of_inForce (hs : Sound p w) {headers : List String}
    (hid : p.keeper.sessionId? headers = some g.id) (hforce : p.InForce w g) :
    ∃ h, Finds p.keeper Memory.store headers w h ∧ h.principal = some g.user := by
  obtain ⟨⟨record, deadline⟩, hholds, hkeeps⟩ := hforce
  exact ⟨.ofRecord record, (finds_iff_live hs.outage).2
    ⟨record, Session.live?_eq_some.2 ⟨g.id, deadline, hid, hholds⟩, hkeeps.bears.principal, rfl⟩⟩

/-- A request that neither presents an identifier nor issues a grant for it leaves what is filed
under it as it is. -/
theorem find?_request_of_other (hreg : p.registry = Graphql.portalRegistry)
    (hs : Sound p w) {id : Id} (hother : p.keeper.sessionId? r.cookieHeaders ≠ some id)
    (hissues : ¬∃ g : Grant, g.id = id ∧ p.Issues w r g) :
    (p.step w (.request r)).store.find? id = w.store.find? id := by
  cases served (r := r) hreg hs.outage with
  | looked store issues ends => rw [store, Session.find?_looked_of_ne hother]
  | cleared store issues ends => rw [store, Session.find?_cleared_of_ne hs.orderly hother]
  | issued n g filed low high hid time found keeps rest issues ends =>
    have hne : id ≠ g.id := by
      rintro rfl
      exact hissues ⟨g, rfl, (issues g).2 ⟨rfl, rfl, rfl, rfl⟩⟩
    rw [rest id hne, Session.find?_cleared_of_ne hs.orderly hother]

/-- Signing in issues a grant, as long as a session that starts now has an end that can be written
down. -/
theorem exists_issues (hout : w.outage = .none) {user : Principal} {password : String}
    (hin : p.signsIn? w.ledger.directoryCalls r = some (user, password))
    (hlasts : p.keeper.Lasts w.clock) :
    ∃ g, p.Issues w r g ∧ g.user = user ∧ g.password = password := by
  rcases serve_signIn hout hin with ⟨hshort, -⟩ |
    ⟨n, record, response, -, -, hresult, hcookies, -⟩
  · exact absurd hlasts hshort
  · refine ⟨⟨p.keeper.ids n, user, password, w.clock⟩, ⟨hin, rfl, response, hresult, ?_⟩, rfl, rfl⟩
    have hmem : ("set-cookie", p.keeper.sessionCookie (p.keeper.ids n)) ∈ response.setCookies := by
      rw [hcookies]
      exact List.mem_singleton_self _
    exact (List.mem_filter.1 hmem).1

/-- The cookies of a request present the identifier of a grant that a run from an empty store
issued, and that is neither ended nor over when the run is. -/
def Presents (p : Portal) (clock : Nat) (es : List Event) (headers : List String)
    (g : Grant) : Prop :=
  p.keeper.sessionId? headers = some g.id ∧ p.Granted (World.start Memory.empty clock) es g ∧
    (p.runFrom clock es).clock < g.time + p.keeper.ttl * 1000

/-- What the sessions of requests are after a run. -/
structure Authenticates (p : Portal) (clock : Nat) (es : List Event) : Prop where
  /-- The session of a request has a principal exactly if the request presents a grant for it. -/
  principal : ∀ headers user,
    (∃ h, Finds p.keeper Memory.store headers (p.runFrom clock es) h ∧ h.principal = some user) ↔
      ∃ g, p.Presents clock es headers g ∧ g.user = user
  /-- It is then one of an administrator exactly if the principal is one, and its credential is the
  password that was given when the grant was issued. -/
  shown : ∀ headers h user, Finds p.keeper Memory.store headers (p.runFrom clock es) h →
    h.principal = some user → h.isAdmin = user.isAdmin ∧
      ∃ g, p.Presents clock es headers g ∧ g.user = user ∧ h.credential = some g.password
  /-- A request that does not present an identifier leaves what is filed under it as it is, unless
  it issues a grant for it. -/
  others : ∀ r id, p.keeper.sessionId? r.cookieHeaders ≠ some id →
    (¬∃ g : Grant, g.id = id ∧ p.Issues (p.runFrom clock es) r g) →
    (p.step (p.runFrom clock es) (.request r)).store.find? id =
      (p.runFrom clock es).store.find? id
  /-- A request that signs someone in issues a grant, as long as a session that starts now has an
  end that can be written down. -/
  issued : ∀ r user password,
    p.signsIn? (p.runFrom clock es).ledger.directoryCalls r = some (user, password) →
    p.keeper.Lasts (p.runFrom clock es).clock →
    ∃ g, p.Issues (p.runFrom clock es) r g ∧ g.user = user ∧ g.password = password

/-- **Authentication is exact.** After any run that starts with an empty store and draws its
identifiers apart, who a request is signed in as is decided by the sign-ins of the run alone. -/
theorem authentication_exact (p : Portal)
    (hreg : p.registry = Graphql.portalRegistry) (clock : Nat) (es : List Event)
    (hids : p.keeper.DrawsApart (p.runFrom clock es).drawn) :
    p.Authenticates clock es := by
  have hs := sound_runFrom hreg clock es
  have hforce {headers : List String} {g : Grant} (hid : p.keeper.sessionId? headers = some g.id) :
      p.InForce (p.runFrom clock es) g ↔ p.Granted (World.start Memory.empty clock) es g ∧
        (p.runFrom clock es).clock < g.time + p.keeper.ttl * 1000 :=
    inForce_iff_granted hreg hids fun _ => Session.sessionCookie_injective hid
  refine ⟨fun headers user => ⟨?_, ?_⟩, ?_, ?_, ?_⟩
  · rintro ⟨h, hf, huser⟩
    obtain ⟨g, hid, hg, hsame, -, -⟩ := inForce_of_finds hs hf huser
    exact ⟨g, ⟨hid, (hforce hid).1 hg⟩, hsame⟩
  · rintro ⟨g, ⟨hid, hg⟩, rfl⟩
    exact finds_of_inForce hs hid ((hforce hid).2 hg)
  · intro headers h user hf huser
    obtain ⟨g, hid, hg, hsame, hadmin, hcredential⟩ := inForce_of_finds hs hf huser
    exact ⟨hadmin, g, ⟨hid, (hforce hid).1 hg⟩, hsame, hcredential⟩
  · intro r id hother hissues
    exact find?_request_of_other hreg hs hother hissues
  · intro r user password hin hlasts
    exact exists_issues hs.outage hin hlasts

/-- The rehearsal portal, a second after someone signed in. -/
theorem authentication_exact_rehearsal :
    Rehearsal.portal.registry = Graphql.portalRegistry ∧
      Rehearsal.portal.keeper.DrawsApart
        (Rehearsal.portal.runFrom 0 [.request Rehearsal.signIn, .pause 1000]).drawn ∧
      Rehearsal.portal.Authenticates 0 [.request Rehearsal.signIn, .pause 1000] := by
  have hreg : Rehearsal.portal.registry = Graphql.portalRegistry := rfl
  have hdrawn : (Rehearsal.portal.runFrom 0 [.request Rehearsal.signIn, .pause 1000]).drawn =
      2 := by
    decide +kernel
  have hall : ∀ i j : Fin 2, Rehearsal.ids i = Rehearsal.ids j → i = j := by decide
  have hids : Rehearsal.portal.keeper.DrawsApart
      (Rehearsal.portal.runFrom 0 [.request Rehearsal.signIn, .pause 1000]).drawn := by
    rw [hdrawn]
    intro i j hi hj h
    exact congrArg Fin.val (hall ⟨i, hi⟩ ⟨j, hj⟩ h)
  exact ⟨hreg, hids, authentication_exact Rehearsal.portal hreg 0 _ hids⟩

end Runs

end Portal

end Intranet
