import Intranet.Proofs.Commits

/-!
# One handle, any history

A handle is held for a while. It is changed, signed in, destroyed and committed in any order and
any number of times, and time passes. Four marks on it say what the store has of it. Whatever the
history, each commit leaves the store as the handle is: with its record and none of its earlier
identifiers, or without all of them.

* `Course.act` — what is done to a handle, with the identifiers that it has had;
* `Course.Sound` — the invariant: what the marks say of the store, with no earlier identifier
  forgotten;
* `Course.Sound.setClaim`, `.login`, `.destroy`, `.pause`, `.commit` — every act keeps it;
* `history_filed` — over every history, what the marks say and what a commit leaves behind.
-/

namespace Intranet

namespace Session

/-! ## Acts -/

/-- What may happen to a handle while it is held. -/
inductive Act where
  | setClaim (key : String) (value : Json)
  | login (principal : Principal) (credential : Option String)
  | destroy
  | commit
  /-- Nothing for so many milliseconds. -/
  | pause (ms : Nat)

namespace Act

/-- Whether the record is another one after the act. -/
def changes : Act → Bool
  | .setClaim _ _ => true
  | .login _ _ => true
  | .destroy => false
  | .commit => false
  | .pause _ => false

def isCommit : Act → Bool
  | .commit => true
  | _ => false

/-- Whether the record was changed behind the last commit. -/
def touched (acts : List Act) : Bool :=
  (acts.reverse.takeWhile fun act => !act.isCommit).any changes

theorem touched_concat (acts : List Act) (act : Act) :
    touched (acts ++ [act]) = (!act.isCommit && (act.changes || touched acts)) := by
  rw [touched, List.reverse_concat, List.takeWhile_cons]
  cases act <;> rfl

theorem any_changes_concat (acts : List Act) (act : Act) :
    (acts ++ [act]).any changes = (acts.any changes || act.changes) := by
  simp

end Act

/-! ## Courses -/

/-- A handle in its world, with the identifiers that it has had and the end of what is filed of
it. -/
structure Course (σ : Type) where
  world : World σ
  handle : Handle
  had : List Id
  ends : Nat

namespace Course

variable {σ : Type} {k : Keeper} {s : Store σ} {fits : Record → Prop} {c : Course σ}

/-- The course after an act. -/
def act (k : Keeper) (s : Store σ) (c : Course σ) : Act → Course σ
  | .setClaim key value => { c with handle := c.handle.setClaim key value }
  | .login principal credential =>
    { c with
      world := { c.world with drawn := c.world.drawn + 1 }
      handle := c.handle.login (k.ids c.world.drawn) principal credential
      had := k.ids c.world.drawn :: c.had }
  | .destroy => { c with handle := c.handle.destroy }
  | .commit =>
    { c with
      world := (Storing.exec (k.commit s c.handle) c.world).2
      handle := c.handle.committed
      ends := match c.handle.takePlan.1 with
        | .save _ _ => c.world.clock + k.ttl * 1000
        | _ => c.ends }
  | .pause ms => { c with world := { c.world with clock := c.world.clock + ms } }

/-- The course after some acts. -/
def run (k : Keeper) (s : Store σ) (c : Course σ) (acts : List Act) : Course σ :=
  acts.foldl (act k s) c

theorem run_concat (acts : List Act) (a : Act) :
    c.run k s (acts ++ [a]) = (c.run k s acts).act k s a := by
  rw [run, List.foldl_append]
  rfl

/-- A commit needs an end that can be written down and a record that the store can take; and time
does not pass the end of what is filed. -/
def Allows (k : Keeper) (s : Store σ) (fits : Record → Prop) (c : Course σ) : Act → Prop
  | .commit => k.Dated s c.world.clock ∧
      ∀ t, expiry c.world.clock k.ttl = .ok t → fits (c.handle.record.endingAt t)
  | .pause ms => c.handle.persisted = true → c.world.clock + ms < c.ends
  | _ => True

/-- Each act of a course is allowed when its turn comes. -/
def Goes (k : Keeper) (s : Store σ) (fits : Record → Prop) : Course σ → List Act → Prop
  | _, [] => True
  | c, a :: rest => c.Allows k s fits a ∧ Goes k s fits (c.act k s a) rest

theorem goes_concat (acts : List Act) (a : Act) :
    Goes k s fits c (acts ++ [a]) ↔ Goes k s fits c acts ∧ (c.run k s acts).Allows k s fits a := by
  induction acts generalizing c with
  | nil => exact ⟨fun h => ⟨trivial, h.1⟩, fun h => ⟨h.2, trivial⟩⟩
  | cons first rest ih =>
    show c.Allows k s fits first ∧ Goes k s fits (c.act k s first) (rest ++ [a]) ↔ _
    rw [ih]
    exact and_assoc.symm

/-- How a course starts: with a session that the store does not know, or with one that was
loaded. -/
inductive Starts (s : Store σ) (w : World σ) : Bool → Course σ → Prop
  | fresh {id : Id} {t : Instant} : (s.load w.clock id w.store).1 = .ok none →
      Starts s w false ⟨w, .fresh id t, [id], w.clock⟩
  | loaded {record : Record} {ends : Nat} : w.clock < ends →
      (∀ now, w.clock ≤ now → now < ends → (s.load now record.id w.store).1 = .ok (some record)) →
      Starts s w true ⟨w, .ofRecord record, [record.id], ends⟩

/-- The identifiers up to a number that are still to be drawn are new: no two are the same, the
store knows none of them, and the handle has not had one of them. -/
structure New (k : Keeper) (s : Store σ) (c : Course σ) (last : Nat) : Prop where
  apart : ∀ m n, c.world.drawn ≤ m → m < last → c.world.drawn ≤ n → n < last →
    k.ids m = k.ids n → m = n
  unknown : ∀ n, c.world.drawn ≤ n → n < last →
    (s.load c.world.clock (k.ids n) c.world.store).1 = .ok none
  other : ∀ n, c.world.drawn ≤ n → n < last → k.ids n ∉ c.had

/-- What the marks of a handle say. -/
structure Sound (k : Keeper) (s : Store σ) (last : Nat) (loaded : Bool) (acts : List Act)
    (c : Course σ) : Prop where
  calm : c.world.outage = .none
  new : c.New k s last
  own : c.handle.record.id ∈ c.had
  -- The store has nothing under an identifier that the handle has had, unless its marks say so.
  remembered : ∀ id ∈ c.had, (s.load c.world.clock id c.world.store).1 = .ok none ∨
    (c.handle.persisted = true ∧ id = c.handle.record.id) ∨ c.handle.replaced = some id
  settled : c.handle.persisted = true → c.handle.replaced = none
  ahead : c.handle.persisted = true → c.world.clock < c.ends
  filed : c.handle.persisted = true → c.handle.changed = false →
    ∃ t, ∀ now, c.world.clock ≤ now → now < c.ends →
      (s.load now c.handle.record.id c.world.store).1 = .ok (some (c.handle.record.endingAt t))
  idle : Act.touched acts = false → c.handle.changed = false
  owed : c.handle.destroyed = false → c.handle.changed = false →
    (loaded || acts.any Act.changes) = true → c.handle.persisted = true

/-- A handle that has no marks has left nothing in the store. -/
theorem Sound.absent {last : Nat} {loaded : Bool} {acts : List Act}
    (h : c.Sound k s last loaded acts) (hpersisted : c.handle.persisted = false)
    (hreplaced : c.handle.replaced = none) {id : Id} (hid : id ∈ c.had) :
    (s.load c.world.clock id c.world.store).1 = .ok none := by
  rcases h.remembered id hid with habsent | ⟨hfiled, -⟩ | hpending
  · exact habsent
  · rw [hpersisted] at hfiled
    cases hfiled
  · rw [hreplaced] at hpending
    cases hpending

/-- A handle whose record is filed has left nothing under its other identifiers. -/
theorem Sound.absent_other {last : Nat} {loaded : Bool} {acts : List Act}
    (h : c.Sound k s last loaded acts) (hpersisted : c.handle.persisted = true) {id : Id}
    (hid : id ∈ c.had) (hne : id ≠ c.handle.record.id) :
    (s.load c.world.clock id c.world.store).1 = .ok none := by
  rcases h.remembered id hid with habsent | ⟨-, hsame⟩ | hpending
  · exact habsent
  · exact absurd hsame hne
  · rw [h.settled hpersisted] at hpending
    cases hpending

/-! ## Acts that make no call -/

section Steps

variable {last : Nat} {loaded : Bool} {acts : List Act}

theorem New.mono {less : Nat} (h : c.New k s last) (hle : less ≤ last) : c.New k s less where
  apart := fun m n hm hm' hn hn' =>
    h.apart m n hm (Nat.lt_of_lt_of_le hm' hle) hn (Nat.lt_of_lt_of_le hn' hle)
  unknown := fun n hn hn' => h.unknown n hn (Nat.lt_of_lt_of_le hn' hle)
  other := fun n hn hn' => h.other n hn (Nat.lt_of_lt_of_le hn' hle)

theorem sound_start {w : World σ} (hstarts : Starts s w loaded c) (hcalm : c.world.outage = .none)
    (hnew : c.New k s last) : c.Sound k s last loaded [] := by
  cases hstarts with
  | fresh habsent =>
    refine ⟨hcalm, hnew, List.mem_singleton.2 rfl, ?_, nofun, nofun, nofun, fun _ => rfl, nofun⟩
    intro id hid
    rw [List.mem_singleton.1 hid]
    exact .inl habsent
  | @loaded record ends hahead hfiled =>
    refine ⟨hcalm, hnew, List.mem_singleton.2 rfl, ?_, fun _ => rfl, fun _ => hahead,
      ?_, fun _ => rfl, fun _ _ _ => rfl⟩
    · intro id hid
      exact .inr (.inl ⟨rfl, List.mem_singleton.1 hid⟩)
    · intro _ _
      exact ⟨record.expiresAt, hfiled⟩

theorem Sound.setClaim (h : c.Sound k s last loaded acts) (key : String) (value : Json) :
    (c.act k s (.setClaim key value)).Sound k s last loaded (acts ++ [.setClaim key value]) where
  calm := h.calm
  new := ⟨h.new.apart, h.new.unknown, h.new.other⟩
  own := h.own
  remembered := h.remembered
  settled := h.settled
  ahead := h.ahead
  filed := nofun
  idle := by
    intro htouched
    rw [Act.touched_concat] at htouched
    cases htouched
  owed := nofun

theorem Sound.destroy (h : c.Sound k s last loaded acts) :
    (c.act k s .destroy).Sound k s last loaded (acts ++ [.destroy]) where
  calm := h.calm
  new := ⟨h.new.apart, h.new.unknown, h.new.other⟩
  own := h.own
  remembered := h.remembered
  settled := h.settled
  ahead := h.ahead
  filed := h.filed
  idle := by
    intro htouched
    rw [Act.touched_concat] at htouched
    exact h.idle htouched
  owed := nofun

theorem Sound.pause (hs : s.Faithful fits) (h : c.Sound k s last loaded acts) {ms : Nat}
    (hallows : c.Allows k s fits (.pause ms)) :
    (c.act k s (.pause ms)).Sound k s last loaded (acts ++ [.pause ms]) where
  calm := h.calm
  new := ⟨h.new.apart, fun n hn hn' => hs.absent (Nat.le_add_right _ _) (h.new.unknown n hn hn'),
    h.new.other⟩
  own := h.own
  remembered := by
    intro id hid
    rcases h.remembered id hid with habsent | hmarked
    · exact .inl (hs.absent (Nat.le_add_right _ _) habsent)
    · exact .inr hmarked
  settled := h.settled
  ahead := hallows
  filed := by
    intro hpersisted hchanged
    obtain ⟨t, ht⟩ := h.filed hpersisted hchanged
    exact ⟨t, fun now hnow => ht now (Nat.le_trans (Nat.le_add_right _ _) hnow)⟩
  idle := by
    intro htouched
    rw [Act.touched_concat] at htouched
    exact h.idle htouched
  owed := by
    intro hdestroyed hchanged howed
    rw [Act.any_changes_concat, Act.changes, Bool.or_false] at howed
    exact h.owed hdestroyed hchanged howed

/-- Signing in gives up the identifier under which the record is filed. No other identifier is
still to be given up then, so none is forgotten. -/
theorem Sound.login (h : c.Sound k s last loaded acts) {principal : Principal}
    {credential : Option String} (hlast : c.world.drawn < last) :
    (c.act k s (.login principal credential)).Sound k s last loaded
      (acts ++ [.login principal credential]) where
  calm := h.calm
  new := by
    refine ⟨fun m n hm hm' hn => h.new.apart m n (Nat.le_of_succ_le hm) hm' (Nat.le_of_succ_le hn),
      fun n hn => h.new.unknown n (Nat.le_of_succ_le hn), ?_⟩
    intro n hn hn' hmem
    rcases List.mem_cons.1 hmem with hsame | hmem
    · have heq :=
        h.new.apart n c.world.drawn (Nat.le_of_succ_le hn) hn' (Nat.le_refl _) hlast hsame
      rw [heq] at hn
      exact Nat.not_succ_le_self _ hn
    · exact h.new.other n (Nat.le_of_succ_le hn) hn' hmem
  own := List.mem_cons_self
  remembered := by
    intro id hid
    rcases List.mem_cons.1 hid with rfl | hid
    · exact .inl (h.new.unknown _ (Nat.le_refl _) hlast)
    rcases h.remembered id hid with habsent | ⟨hpersisted, hid⟩ | hreplaced
    · exact .inl habsent
    · refine .inr (.inr ?_)
      show (if c.handle.persisted then some c.handle.record.id else c.handle.replaced) = some id
      rw [if_pos hpersisted, hid]
    · refine .inr (.inr ?_)
      show (if c.handle.persisted then some c.handle.record.id else c.handle.replaced) = some id
      rw [if_neg, hreplaced]
      intro hpersisted
      rw [h.settled hpersisted] at hreplaced
      cases hreplaced
  settled := nofun
  ahead := nofun
  filed := nofun
  idle := by
    intro htouched
    rw [Act.touched_concat] at htouched
    cases htouched
  owed := nofun

/-! ## Commits -/

/-- A commit draws no identifier, so those that are new stay new if it brings none of them to
life. -/
theorem New.commit (h : c.New k s last) {w₁ : World σ} (hrest : c.world.SameOffStore w₁)
    (hload : ∀ n, c.world.drawn ≤ n → n < last →
      (s.load c.world.clock (k.ids n) w₁.store).1 = .ok none) (handle : Handle) (ends : Nat) :
    New k s ⟨w₁, handle, c.had, ends⟩ last := by
  refine ⟨?_, ?_, ?_⟩
  · rw [hrest.drawn]
    exact h.apart
  · rw [hrest.drawn, hrest.clock]
    exact hload
  · rw [hrest.drawn]
    exact h.other

/-- A commit that removes leaves nothing under the identifiers that the handle has had. -/
theorem Sound.commit_destroyed (hs : s.Faithful fits) (h : c.Sound k s last loaded acts)
    (hallows : c.Allows k s fits .commit) (hdestroyed : c.handle.destroyed = true) :
    (c.act k s .commit).Sound k s last loaded (acts ++ [.commit]) := by
  have htake := Handle.takePlan_destroyed hdestroyed
  obtain ⟨cookie, calls, w₁, hexec, hcarried, hrest⟩ := exec_commit hallows.1 h.calm c.handle
  rw [htake] at hcarried
  have hload (id : Id) : (s.load c.world.clock id w₁.store).1 =
      if id ∈ c.handle.filings then .ok none else (s.load c.world.clock id c.world.store).1 :=
    hcarried.load hs (by rintro _ _ ⟨⟩)
  have hgone {id : Id} (hid : (s.load c.world.clock id c.world.store).1 = .ok none) :
      (s.load c.world.clock id w₁.store).1 = .ok none := by
    rw [hload, hid, ite_self]
  have hact : c.act k s .commit =
      ⟨w₁, { c.handle with persisted := false, changed := false, replaced := none }, c.had,
        c.ends⟩ := by
    rw [act, hexec, Handle.committed, htake]
  rw [hact]
  refine ⟨hrest.outage.trans h.calm, ?_, h.own, ?_, ?_, ?_, ?_, fun _ => rfl, ?_⟩
  · exact h.new.commit hrest (fun n hn hn' => hgone (h.new.unknown n hn hn')) _ _
  · intro id hid
    refine .inl ?_
    show (s.load w₁.clock id w₁.store).1 = .ok none
    rw [hrest.clock]
    rcases h.remembered id hid with habsent | ⟨hpersisted, rfl⟩ | hreplaced
    · exact hgone habsent
    · rw [hload, if_pos]
      simp [Handle.filings, hpersisted]
    · rw [hload, if_pos]
      simp [Handle.filings, hreplaced]
  · rintro ⟨⟩
  · rintro ⟨⟩
  · rintro ⟨⟩
  · intro hundestroyed
    rw [hdestroyed] at hundestroyed
    cases hundestroyed

/-- A commit that saves leaves the record under the identifier of the handle, and nothing under the
other ones that it has had. -/
theorem Sound.commit_changed (hs : s.Faithful fits) (httl : 0 < k.ttl)
    (h : c.Sound k s last loaded acts) (hallows : c.Allows k s fits .commit)
    (hdestroyed : c.handle.destroyed = false) (hchanged : c.handle.changed = true) :
    (c.act k s .commit).Sound k s last loaded (acts ++ [.commit]) := by
  have htake := Handle.takePlan_changed hdestroyed hchanged
  obtain ⟨cookie, calls, w₁, hexec, hcarried, hrest⟩ := exec_commit hallows.1 h.calm c.handle
  rw [htake] at hcarried
  have hload {id : Id} (hid : id ≠ c.handle.record.id) :
      (s.load c.world.clock id w₁.store).1 =
        if id ∈ c.handle.replaced.toList then .ok none
        else (s.load c.world.clock id c.world.store).1 := by
    refine hcarried.load hs ?_
    intro record old? hplan
    cases hplan
    exact hid
  have hgone {id : Id} (hne : id ≠ c.handle.record.id)
      (hid : (s.load c.world.clock id c.world.store).1 = .ok none) :
      (s.load c.world.clock id w₁.store).1 = .ok none := by
    rw [hload hne, hid, ite_self]
  have hact : c.act k s .commit =
      ⟨w₁, { c.handle with changed := false, persisted := true, replaced := none }, c.had,
        c.world.clock + k.ttl * 1000⟩ := by
    rw [act, hexec, Handle.committed, htake]
  rw [hact]
  refine ⟨hrest.outage.trans h.calm, ?_, h.own, ?_, fun _ => rfl, ?_, ?_, fun _ => rfl,
    fun _ _ _ => rfl⟩
  · refine h.new.commit hrest (fun n hn hn' => hgone ?_ (h.new.unknown n hn hn')) _ _
    intro heq
    exact h.new.other n hn hn' (heq ▸ h.own)
  · intro id hid
    by_cases hne : id = c.handle.record.id
    · exact .inr (.inl ⟨rfl, hne⟩)
    refine .inl ?_
    show (s.load w₁.clock id w₁.store).1 = .ok none
    rw [hrest.clock]
    rcases h.remembered id hid with habsent | ⟨-, heq⟩ | hreplaced
    · exact hgone hne habsent
    · exact absurd heq hne
    · rw [hload hne, hreplaced, if_pos (Option.mem_toList.2 rfl)]
  · intro _
    show w₁.clock < c.world.clock + k.ttl * 1000
    rw [hrest.clock]
    omega
  · intro _ _
    cases hcarried with
    | @save _ _ t _ ht hsave =>
      exact ⟨t, fun now _ hnow => hs.saved (hallows.2 t ht) hsave hnow⟩

theorem Sound.commit_unchanged (h : c.Sound k s last loaded acts)
    (hdestroyed : c.handle.destroyed = false) (hchanged : c.handle.changed = false) :
    (c.act k s .commit).Sound k s last loaded (acts ++ [.commit]) := by
  have hact : c.act k s .commit = c := by
    rw [act, exec_commit_unchanged hdestroyed hchanged, Handle.committed,
      Handle.takePlan_unchanged hdestroyed hchanged]
  rw [hact]
  refine ⟨h.calm, h.new, h.own, h.remembered, h.settled, h.ahead, h.filed, fun _ => hchanged, ?_⟩
  intro hundestroyed _ howed
  rw [Act.any_changes_concat, Act.changes, Bool.or_false] at howed
  exact h.owed hundestroyed hchanged howed

theorem Sound.commit (hs : s.Faithful fits) (httl : 0 < k.ttl) (h : c.Sound k s last loaded acts)
    (hallows : c.Allows k s fits .commit) :
    (c.act k s .commit).Sound k s last loaded (acts ++ [.commit]) := by
  cases hdestroyed : c.handle.destroyed with
  | true => exact h.commit_destroyed hs hallows hdestroyed
  | false =>
    cases hchanged : c.handle.changed with
    | true => exact h.commit_changed hs httl hallows hdestroyed hchanged
    | false => exact h.commit_unchanged hdestroyed hchanged

end Steps

/-! ## Histories -/

theorem drawn_act (a : Act) : c.world.drawn ≤ (c.act k s a).world.drawn := by
  cases a with
  | login principal credential => exact Nat.le_succ _
  | commit => exact (quiet_carryOut k s c.handle.takePlan.1 c.world).drawn
  | setClaim key value => exact Nat.le_refl _
  | destroy => exact Nat.le_refl _
  | pause ms => exact Nat.le_refl _

/-- Every act keeps the invariant. -/
theorem Sound.act (hs : s.Faithful fits) (httl : 0 < k.ttl) {last : Nat} {loaded : Bool}
    {acts : List Act} (h : c.Sound k s last loaded acts) {a : Act} (hallows : c.Allows k s fits a)
    (hlast : (c.act k s a).world.drawn ≤ last) :
    (c.act k s a).Sound k s last loaded (acts ++ [a]) := by
  cases a with
  | setClaim key value => exact h.setClaim key value
  | login principal credential => exact h.login hlast
  | destroy => exact h.destroy
  | commit => exact h.commit hs httl hallows
  | pause ms => exact h.pause hs hallows

/-- So does every history. -/
theorem sound_run (hs : s.Faithful fits) (httl : 0 < k.ttl) {w : World σ} {loaded : Bool}
    (hstarts : Starts s w loaded c) (hcalm : c.world.outage = .none) {last : Nat}
    (hnew : c.New k s last) {acts : List Act} (hgoes : Goes k s fits c acts)
    (hlast : (c.run k s acts).world.drawn ≤ last) :
    (c.run k s acts).Sound k s last loaded acts := by
  induction acts using List.reverseRecOn with
  | nil => exact sound_start hstarts hcalm hnew
  | append_singleton acts a ih =>
    obtain ⟨hbefore, hallows⟩ := (goes_concat acts a).1 hgoes
    rw [run_concat] at hlast ⊢
    exact (ih hbefore (Nat.le_trans (drawn_act a) hlast)).act hs httl hallows hlast

end Course

/-- **One handle, any history.** A handle that is new or was loaded is changed, signed in,
destroyed and committed in any order, with a store that refuses no call, new identifiers, and no
time passing the end of what is filed. Then it never counts as filed with an identifier still to be
given up, and every commit gets done. If the handle is destroyed, the store has nothing under any
identifier that it has had. Otherwise, if it was loaded or ever changed, the store has its record,
up to its end, and nothing under the other identifiers that it has had; and if it was not changed
behind the last commit, no call is made and no cookie is sent. -/
theorem history_filed {σ : Type} {k : Keeper} {s : Store σ} {fits : Record → Prop}
    (hs : s.Faithful fits) (httl : 0 < k.ttl) {w : World σ} (hcalm : w.outage = .none)
    {loaded : Bool} {start : Course σ} (hstarts : Course.Starts s w loaded start) (acts : List Act)
    (hnew : start.New k s (start.run k s acts).world.drawn) (hgoes : start.Goes k s fits acts) :
    let c := start.run k s acts
    (c.handle.persisted = true → c.handle.replaced = none) ∧
    (c.Allows k s fits .commit →
      ∃ cookie w₁, Storing.exec (k.commit s c.handle) c.world = (.ok (.ok cookie), w₁) ∧
        (c.handle.destroyed = true → ∀ id ∈ c.had, (s.load w₁.clock id w₁.store).1 = .ok none) ∧
        (c.handle.destroyed = false → (loaded || acts.any Act.changes) = true →
          (∃ t, (s.load w₁.clock c.handle.id w₁.store).1 =
            .ok (some (c.handle.record.endingAt t))) ∧
          ∀ id ∈ c.had, id ≠ c.handle.id → (s.load w₁.clock id w₁.store).1 = .ok none) ∧
        (c.handle.destroyed = false → Act.touched acts = false →
          cookie = none ∧ w₁ = c.world)) := by
  intro c
  have hcalm : start.world.outage = .none := by cases hstarts <;> exact hcalm
  have hsound := Course.sound_run hs httl hstarts hcalm hnew hgoes (Nat.le_refl _)
  refine ⟨hsound.settled, fun hallows => ?_⟩
  have hafter := hsound.commit hs httl hallows
  obtain ⟨cookie, calls, w₁, hexec, -, -⟩ := exec_commit hallows.1 hsound.calm c.handle
  obtain ⟨hrecord, hdestroyed, hchanged⟩ := c.handle.committed_spec
  have hhandle : (c.act k s .commit).handle.record = c.handle.record := hrecord
  obtain rfl : (c.act k s .commit).world = w₁ := congrArg Prod.snd hexec
  refine ⟨cookie, _, hexec, fun hgone id hid => ?_, fun hkept howed => ?_, fun hkept hidle => ?_⟩
  · refine hafter.absent ?_ ?_ hid
    · show c.handle.committed.persisted = false
      rw [Handle.committed, Handle.takePlan_destroyed hgone]
    · show c.handle.committed.replaced = none
      rw [Handle.committed, Handle.takePlan_destroyed hgone]
  · have howed : (loaded || (acts ++ [Act.commit]).any Act.changes) = true := by
      rw [Act.any_changes_concat, Act.changes, Bool.or_false]
      exact howed
    have hpersisted := hafter.owed (hdestroyed.trans hkept) hchanged howed
    obtain ⟨t, ht⟩ := hafter.filed hpersisted hchanged
    have hfound := ht _ (Nat.le_refl _) (hafter.ahead hpersisted)
    rw [hhandle] at hfound
    refine ⟨⟨t, hfound⟩, fun id hid hne => hafter.absent_other hpersisted hid ?_⟩
    rw [hhandle]
    exact hne
  · rw [exec_commit_unchanged hkept (hsound.idle hidle)] at hexec
    obtain ⟨hcookie, hworld⟩ := Prod.mk.inj hexec
    cases hcookie
    exact ⟨rfl, hworld.symm⟩

/-- A new session in an empty store, at the beginning of time. -/
def newCourse : Course Memory :=
  ⟨{ World.start Memory.empty 0 with drawn := 1 }, .fresh (Rehearsal.ids 0) (.ofMillis 3600000),
    [Rehearsal.ids 0], 0⟩

/-- It is saved with a claim, and a second later someone signs in twice before it is committed
again. -/
def twoSignIns : List Act :=
  let person := (Rehearsal.stockPerson 1 "jdoe" "secret" false).principal
  [.setClaim "theme" (.str "dark"), .commit, .pause 1000, .login person none,
    .login person (some "secret")]

/-- That commit gets done, and it leaves the session of the second sign-in alone. -/
theorem history_filed_twoSignIns :
    let k := Rehearsal.portal.keeper
    let c := newCourse.run k Memory.store twoSignIns
    newCourse.New k Memory.store c.world.drawn ∧
      newCourse.Goes k Memory.store (fun _ => True) twoSignIns ∧
      ∃ cookie w₁, Storing.exec (k.commit Memory.store c.handle) c.world = (.ok (.ok cookie), w₁) ∧
        (∃ t, (Memory.store.load w₁.clock c.handle.id w₁.store).1 =
          .ok (some (c.handle.record.endingAt t))) ∧
        ∀ id ∈ c.had, id ≠ c.handle.id →
          (Memory.store.load w₁.clock id w₁.store).1 = .ok none := by
  intro k c
  have hdrawn : c.world.drawn = 3 := by decide +kernel
  have hnew : newCourse.New k Memory.store c.world.drawn := by
    rw [hdrawn]
    have hall : ∀ i j : Fin 3, k.ids i = k.ids j → i = j := by decide
    refine ⟨fun m n _ hm _ hn h => ?_, fun _ _ _ => rfl, ?_⟩
    · exact congrArg Fin.val (hall ⟨m, hm⟩ ⟨n, hn⟩ h)
    · intro n hn hn' hmem
      have hzero := congrArg Fin.val (hall ⟨n, hn'⟩ ⟨0, by decide⟩ (List.mem_singleton.1 hmem))
      have hn : 1 ≤ n := hn
      have hzero : n = 0 := hzero
      omega
  have hfirst : Rehearsal.portal.keeper.Dated Memory.store 0 :=
    Keeper.Lasts.dated ⟨⟨_, rfl⟩, by decide⟩
  have hsecond : Rehearsal.portal.keeper.Dated Memory.store 1000 :=
    Keeper.Lasts.dated ⟨⟨_, rfl⟩, by decide⟩
  have hgoes : newCourse.Goes k Memory.store (fun _ => True) twoSignIns := by
    refine ⟨trivial, ⟨hfirst, fun _ _ => trivial⟩, fun _ => ?_, trivial, trivial, trivial⟩
    decide +kernel
  have hclock : c.world.clock = 1000 := by decide +kernel
  have hallows : c.Allows k Memory.store (fun _ => True) .commit :=
    ⟨hclock ▸ hsecond, fun _ _ => trivial⟩
  have hstarts : Course.Starts Memory.store newCourse.world false newCourse := .fresh rfl
  obtain ⟨-, hcommit⟩ :=
    history_filed Memory.faithful (by decide) rfl hstarts twoSignIns hnew hgoes
  obtain ⟨cookie, w₁, hexec, -, hfiled, -⟩ := hcommit hallows
  exact ⟨hnew, hgoes, cookie, w₁, hexec, hfiled (by decide +kernel) (by decide)⟩

end Session

end Intranet
