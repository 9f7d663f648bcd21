import Intranet.Proofs.Json.Values
import Intranet.Proofs.Tasks
import Intranet.Sync.Trigger

/-!
# Collecting replies

All requests to the sync service are answered on one channel. Whoever waits for the replies to a
request hears those to others and texts that are no packets, too, in any order. What comes out is
decided by the replies to the request alone: by the first one with an error or the mark that it is
the last one, and by the responses up to it.

* `replyIn?`, `repliesTo` — the replies to a request among packets;
* `Reply.IsMember`, `exists_reply` — which members make a reply, and what it says;
* `Reply.Ends`, `Decided` — the reply that ends a request, and how the request ends;
* `outcome?_eq_gather` — packets that are no replies to the request change nothing;
* `take_of_not_ends`, `gather_append` — what one reply and what replies that do not end the request
  leave behind;
* `gather_eq_some_iff`, `gather_eq_none_iff` — the run over all replies;
* `collection_exact` — how a request ends, for any packets.
-/

namespace Intranet

namespace Sync

/-! ## Replies among packets -/

/-- The reply to a request in a packet, if it is one. -/
def replyIn? (id payload : String) : Option Reply :=
  match Reply.decoder.runText payload with
  | .ok r => if r.id = id then some r else none
  | .error _ => none

/-- The replies to a request, in order. -/
def repliesTo (id : String) (payloads : List String) : List Reply :=
  payloads.filterMap (replyIn? id)

/-- Packets that are no replies to a request may be left out. -/
theorem repliesTo_filter (id : String) (payloads : List String) :
    repliesTo id (payloads.filter fun payload => (replyIn? id payload).isSome) =
      repliesTo id payloads := by
  rw [repliesTo, List.filterMap_filter, repliesTo]
  congr 1
  funext payload
  cases replyIn? id payload <;> rfl

/-! ## What replies say -/

/-- A field says something: it is there and is not null. -/
def Says (field : Option Json) (value : Json) : Prop := field = some value ∧ value ≠ .null

/-- The message that describes an error: a string itself, the string under `message` in an object,
and the text of any other value. -/
inductive Describes : Json → String → Prop
  | text (s : String) : Describes (.str s) s
  | message {members : Members} {s : String} :
      Members.get? "message" members = some (.str s) → Describes (.obj members) s
  | value {err : Json} : (∀ s, err ≠ .str s) →
      (∀ members s, err = .obj members → Members.get? "message" members ≠ some (.str s)) →
      Describes err err.text

/-- The last response among replies, and null if there is none. -/
inductive LastResponse (replies : List Reply) : Json → Prop
  | response {earlier later : List Reply} {r : Reply} {value : Json} :
      replies = earlier ++ r :: later →
      Says r.response value → (∀ x ∈ later, ∀ v, ¬Says x.response v) → LastResponse replies value
  | none : (∀ r ∈ replies, ∀ v, ¬Says r.response v) → LastResponse replies .null

/-- A reply that ends its request: it has an error or is marked as the last one. -/
def Reply.Ends (r : Reply) : Prop := (∃ err, Says r.err err) ∨ r.isDisposed = true

/-- How replies decide on a request: the first one that ends it does, with its error or with the
last response so far. -/
inductive Decided (replies : List Reply) : Except Failure Json → Prop
  | failed {earlier later : List Reply} {last : Reply} {err : Json} {message : String} :
      replies = earlier ++ last :: later → (∀ r ∈ earlier, ¬r.Ends) → Says last.err err →
      Describes err message → Decided replies (.error (.relayed 502 message))
  | answered {earlier later : List Reply} {last : Reply} {response : Json} :
      replies = earlier ++ last :: later → (∀ r ∈ earlier, ¬r.Ends) → (∀ err, ¬Says last.err err) →
      last.isDisposed = true → LastResponse (earlier ++ [last]) response →
        Decided replies (.ok response)

theorem said_eq_some_iff {field : Option Json} {value : Json} :
    Reply.said field = some value ↔ Says field value := by
  have hnull : (!value.isNull) = true ↔ value ≠ .null := by cases value <;> simp [Json.isNull]
  rw [Reply.said, Option.filter_eq_some_iff, hnull]
  rfl

theorem said_eq_none_iff {field : Option Json} :
    Reply.said field = none ↔ ∀ value, ¬Says field value := by
  rw [Option.eq_none_iff_forall_ne_some]
  exact forall_congr' fun value => not_congr said_eq_some_iff

/-! ## Packets -/

namespace Reply

/-- A member of a packet: the request that it answers, an answer or an error, or the mark of the
last packet. -/
inductive IsMember : String × Json → Prop
  | id (s : String) : IsMember ("id", .str s)
  | response {v : Json} : v.IsWhole → v.nesting < Json.maxDepth → IsMember ("response", v)
  | err {v : Json} : v.IsWhole → v.nesting < Json.maxDepth → IsMember ("err", v)
  | isDisposed (b : Bool) : IsMember ("isDisposed", .bool b)

/-- The reply as far as its members have been read. -/
def Draft.ofMembers (ms : Members) : Draft where
  id := (Members.get? "id" ms).bind Json.str?
  response := (Members.get? "response" ms).map fun v => said (some v)
  err := (Members.get? "err" ms).map fun v => said (some v)
  isDisposed := (Members.get? "isDisposed" ms).bind Json.bool?

/-- Members of different names are read one after the other, in any order. -/
theorem fills_members {ms done : Members} (hms : ∀ m ∈ ms, IsMember m)
    (hnames : ((done ++ ms).map Prod.fst).Nodup) :
    Json.Fills (Json.Decoder.recordMember fields 126) ms (.ofMembers done)
      (.ofMembers (done ++ ms)) := by
  have hany {v : Json} (hwhole : v.IsWhole) (hdepth : v.nesting < Json.maxDepth)
      (rest : List UInt8) (hrest : Json.EndsValue rest) :
      Json.Reads (Json.Decoder.nullable Json.Decoder.any 126)
        (Json.bytesOf (Json.textL v) ++ rest) (said (some v)) rest :=
    Json.reads_nullable_any hwhole (Nat.le_of_lt_succ hdepth) hrest
  induction ms generalizing done with
  | nil =>
    rw [List.append_nil]
    exact .nil _
  | cons m ms ih =>
    have hshape : done ++ m :: ms = done ++ [m] ++ ms := by simp
    have hfresh : Members.get? m.1 done = none := by
      refine Members.get?_eq_none fun hmem => ?_
      rw [List.map_append, List.map_cons] at hnames
      exact (List.nodup_append.1 hnames).2.2 m.1 hmem m.1 List.mem_cons_self rfl
    rw [hshape] at hnames ⊢
    have hrest := ih (fun x hx => hms x (List.mem_cons_of_mem m hx)) hnames
    -- each member fills the place that the draft of those before it leaves open
    cases hms m List.mem_cons_self with
    | id s =>
      refine .slot rfl ?_ (fun rest _ => Json.reads_text s 126 rest) ?_
      · simp [Draft.ofMembers, hfresh]
      · simpa [Draft.ofMembers, Members.get?_append, Members.get?, hfresh, Json.str?] using hrest
    | response hwhole hdepth =>
      refine .slot rfl ?_ (hany hwhole hdepth) ?_
      · simp [Draft.ofMembers, hfresh]
      · simpa [Draft.ofMembers, Members.get?_append, Members.get?, hfresh] using hrest
    | err hwhole hdepth =>
      refine .slot rfl ?_ (hany hwhole hdepth) ?_
      · simp [Draft.ofMembers, hfresh]
      · simpa [Draft.ofMembers, Members.get?_append, Members.get?, hfresh] using hrest
    | isDisposed b =>
      refine .slot rfl ?_ (fun rest _ => Json.reads_flag b 126 rest) ?_
      · simp [Draft.ofMembers, hfresh]
      · simpa [Draft.ofMembers, Members.get?_append, Members.get?, hfresh, Json.bool?] using hrest

/-- A packet with such members, one of them the request, is read. -/
theorem runText_members {ms : Members} {id : String} (hms : ∀ m ∈ ms, IsMember m)
    (hnames : (ms.map Prod.fst).Nodup) (hid : Members.get? "id" ms = some (.str id)) :
    decoder.runText (Json.obj ms).text = .ok (Draft.ofMembers ms).finish := by
  have hfills : Json.Fills (Json.Decoder.recordMember fields 126) ms (.ofMembers [])
      (.ofMembers ms) := fills_members hms hnames
  refine Json.runText_of_reads ?_
  have hread : Json.Reads (decoder Json.maxDepth) (Json.bytesOf (Json.textL (.obj ms)) ++ [])
      (Draft.ofMembers ms).finish [] := by
    refine Json.reads_record hfills (fun field hfield hrequired => ?_) []
    simp only [fields, List.mem_cons, List.not_mem_nil, or_false] at hfield
    rcases hfield with rfl | rfl | rfl | rfl
    · simp [Json.Decoder.Field.slot, Draft.ofMembers, hid, Json.str?]
    · cases hrequired
    · cases hrequired
    · cases hrequired
  rwa [List.append_nil] at hread

end Reply

/-- **What makes a reply.** A packet whose members have different names, with the request under
`id`, is a reply to it. What stands under `response` and `err` is said by it unless it is null, and
it is the last one if it has the mark. -/
theorem exists_reply {ms : Members} {id : String} (hms : ∀ m ∈ ms, Reply.IsMember m)
    (hnames : (ms.map Prod.fst).Nodup) (hid : Members.get? "id" ms = some (.str id)) :
    ∃ r, replyIn? id (Json.obj ms).text = some r ∧
      (∀ v, Says r.response v ↔ Members.get? "response" ms = some v ∧ v ≠ .null) ∧
      (∀ v, Says r.err v ↔ Members.get? "err" ms = some v ∧ v ≠ .null) ∧
      (r.isDisposed = true ↔ Members.get? "isDisposed" ms = some (.bool true)) := by
  have hsays (field : Option Json) (v : Json) :
      Says ((field.map fun v => Reply.said (some v)).join) v ↔ field = some v ∧ v ≠ .null := by
    cases field with
    | none => simp [Says]
    | some w =>
      rw [Option.map_some, Option.join_some, Says, said_eq_some_iff, Says]
      exact ⟨fun h => h.1, fun h => ⟨h, h.2⟩⟩
  refine ⟨(Reply.Draft.ofMembers ms).finish, ?_, hsays _, hsays _, ?_⟩
  · rw [replyIn?, Reply.runText_members hms hnames hid]
    simp [Reply.Draft.finish, Reply.Draft.ofMembers, hid, Json.str?]
  · simp only [Reply.Draft.finish, Reply.Draft.ofMembers]
    cases Members.get? "isDisposed" ms with
    | none => simp
    | some v => cases v <;> simp [Json.bool?]

theorem describes_iff {err : Json} {message : String} :
    Describes err message ↔ Reply.errorMessage err = message := by
  constructor
  · intro h
    cases h with
    | text s => rfl
    | message hmessage => rw [Reply.errorMessage, hmessage]
    | value hstr hobj =>
      unfold Reply.errorMessage
      split
      · exact absurd rfl (hstr _)
      · split
        · next hmessage => exact absurd hmessage (hobj _ _ rfl)
        · rfl
      · rfl
  · rintro rfl
    unfold Reply.errorMessage
    split
    · exact .text _
    · next members =>
      split
      · next hmessage => exact .message hmessage
      · next hmessage =>
        refine .value nofun fun found s hfound hs => ?_
        cases hfound
        exact hmessage s hs
    · next hstr hobj => exact .value hstr fun members _ h => absurd h (hobj members)

/-! ## Responses -/

/-- The last response among replies, if there is one. -/
def lastResponse? (replies : List Reply) : Option Json :=
  (replies.filterMap fun r => Reply.said r.response).getLast?

theorem lastResponse?_append (earlier later : List Reply) :
    lastResponse? (earlier ++ later) = (lastResponse? later).or (lastResponse? earlier) := by
  rw [lastResponse?, List.filterMap_append, List.getLast?_append]
  rfl

theorem lastResponse?_singleton (r : Reply) : lastResponse? [r] = Reply.said r.response := by
  cases h : Reply.said r.response <;> simp [lastResponse?, h]

theorem lastResponse?_eq_none {replies : List Reply} (h : ∀ r ∈ replies, ∀ v, ¬Says r.response v) :
    lastResponse? replies = none := by
  rw [lastResponse?, List.filterMap_eq_nil_iff.2 fun r hr => said_eq_none_iff.2 (h r hr)]
  rfl

theorem lastResponse_iff {replies : List Reply} {value : Json} :
    LastResponse replies value ↔ (lastResponse? replies).getD .null = value := by
  constructor
  · intro h
    cases h with
    | @response earlier later r value hreplies hsays hlater =>
      have hlast : lastResponse? replies = some value := by
        rw [hreplies, List.append_cons, lastResponse?_append, lastResponse?_append,
          lastResponse?_eq_none hlater, lastResponse?_singleton, said_eq_some_iff.2 hsays]
        rfl
      rw [hlast]
      rfl
    | none hnone =>
      rw [lastResponse?_eq_none hnone]
      rfl
  · rintro rfl
    cases hlast : lastResponse? replies with
    | none =>
      rw [lastResponse?, List.getLast?_eq_none_iff, List.filterMap_eq_nil_iff] at hlast
      exact .none fun r hr => said_eq_none_iff.1 (hlast r hr)
    | some value =>
      obtain ⟨values, hvalues⟩ := List.getLast?_eq_some_iff.1 hlast
      obtain ⟨earlier, rest, rfl, -, hrest⟩ := List.filterMap_eq_append_iff.1 hvalues
      obtain ⟨skipped, r, later, rfl, -, hr, hlater⟩ := List.filterMap_eq_cons_iff.1 hrest
      refine .response (List.append_assoc earlier skipped (r :: later)).symm
        (said_eq_some_iff.1 hr) ?_
      exact fun x hx => said_eq_none_iff.1 (List.filterMap_eq_nil_iff.1 hlater x hx)

/-! ## Collecting -/

namespace Collector

/-- Takes replies to the request one after the other, up to the one that ends it. -/
def gather : Collector → List Reply → Option (Except Failure Json)
  | _, [] => none
  | c, r :: rest =>
    match c.take r with
    | (some outcome, _) => some outcome
    | (none, c) => gather c rest

/-- What a collector makes of a packet is what it makes of the reply in it. -/
theorem accept_eq (c : Collector) (payload : String) :
    c.accept payload = ((replyIn? c.id payload).map c.take).getD (none, c) := by
  rw [accept, read, replyIn?]
  cases Reply.decoder.runText payload with
  | error reason => rfl
  | ok r => by_cases hid : r.id = c.id <;> simp [hid]

theorem take_id (c : Collector) (r : Reply) : (c.take r).2.id = c.id := by
  unfold take
  split
  · rfl
  · dsimp only
    split <;> rfl

/-- Packets that are no replies to the request change nothing, wherever they come in. -/
theorem outcome?_eq_gather (c : Collector) (payloads : List String) :
    c.outcome? payloads = c.gather (repliesTo c.id payloads) := by
  induction payloads generalizing c with
  | nil => rfl
  | cons payload rest ih =>
    rw [outcome?, accept_eq, repliesTo]
    cases hreply : replyIn? c.id payload with
    | none =>
      rw [List.filterMap_cons_none hreply]
      exact ih c
    | some r =>
      rw [List.filterMap_cons_some hreply, gather]
      have hid := take_id c r
      cases htake : c.take r with
      | mk outcome c₁ =>
        rw [htake] at hid
        cases outcome with
        | some outcome => simp [htake]
        | none =>
          simp only [Option.map_some, Option.getD_some, htake]
          rw [ih c₁, hid]
          rfl

/-- A reply that does not end the request leaves its response behind. -/
theorem take_of_not_ends {c : Collector} {r : Reply} (h : ¬r.Ends) :
    c.take r = (none, { c with response := (lastResponse? [r]).or c.response }) := by
  rw [Reply.Ends, not_or, not_exists, Bool.not_eq_true] at h
  rw [take, said_eq_none_iff.2 h.1, lastResponse?_singleton, h.2]
  rfl

/-- An error ends the request with its message. -/
theorem take_of_err (c : Collector) {r : Reply} {err : Json} {message : String}
    (herr : Says r.err err) (hmessage : Describes err message) :
    (c.take r).1 = some (.error (.relayed 502 message)) := by
  rw [take, said_eq_some_iff.2 herr, ← describes_iff.1 hmessage]

/-- The mark of the last reply ends the request with the last response. -/
theorem take_of_disposed (c : Collector) {r : Reply} (herr : ∀ err, ¬Says r.err err)
    (hdisposed : r.isDisposed = true) :
    (c.take r).1 = some (.ok (((lastResponse? [r]).or c.response).getD .null)) := by
  rw [take, said_eq_none_iff.2 herr, lastResponse?_singleton, hdisposed]
  rfl

theorem gather_of_take {c : Collector} {r : Reply} {outcome : Except Failure Json}
    (h : (c.take r).1 = some outcome) (rest : List Reply) :
    c.gather (r :: rest) = some outcome := by
  rw [gather]
  cases htake : c.take r with
  | mk ended c₁ =>
    rw [htake] at h
    cases h
    rfl

/-- Replies that do not end the request leave their last response behind. -/
theorem gather_append {c : Collector} {earlier : List Reply} (h : ∀ r ∈ earlier, ¬r.Ends)
    (replies : List Reply) :
    c.gather (earlier ++ replies) =
      gather { c with response := (lastResponse? earlier).or c.response } replies := by
  induction earlier generalizing c with
  | nil => rfl
  | cons r rest ih =>
    rw [List.forall_mem_cons] at h
    rw [List.cons_append, gather, take_of_not_ends h.1]
    dsimp only
    have hresponse : lastResponse? (r :: rest) = (lastResponse? rest).or (lastResponse? [r]) :=
      lastResponse?_append [r] rest
    rw [ih h.2, hresponse, Option.or_assoc]

/-- Without a reply that ends it a request goes on. -/
theorem gather_of_not_ends {c : Collector} {replies : List Reply} (h : ∀ r ∈ replies, ¬r.Ends) :
    c.gather replies = none := by
  have hrun := gather_append (c := c) h []
  rwa [List.append_nil] at hrun

/-- A request ends as its replies decide. -/
theorem gather_of_decided {id : String} {replies : List Reply} {outcome : Except Failure Json}
    (h : Decided replies outcome) : (start id).gather replies = some outcome := by
  cases h with
  | failed hreplies hearlier herr hmessage =>
    rw [hreplies, gather_append hearlier]
    exact gather_of_take (take_of_err _ herr hmessage) _
  | answered hreplies hearlier herr hdisposed hresponse =>
    rw [lastResponse_iff, lastResponse?_append] at hresponse
    rw [hreplies, gather_append hearlier, ← hresponse]
    refine gather_of_take ((take_of_disposed _ herr hdisposed).trans ?_) _
    rw [start, Option.or_none]

/-- Replies one of which ends the request decide on it. -/
theorem exists_decided {replies : List Reply} (h : ∃ r ∈ replies, r.Ends) :
    ∃ outcome, Decided replies outcome := by
  classical
  have hfound : (replies.find? fun r => decide r.Ends).isSome := by simpa using h
  obtain ⟨last, hlast⟩ := Option.isSome_iff_exists.1 hfound
  obtain ⟨hends, earlier, later, hreplies, hearlier⟩ := List.find?_eq_some_iff_append.1 hlast
  have hnot : ∀ r ∈ earlier, ¬r.Ends := by simpa using hearlier
  by_cases herr : ∃ err, Says last.err err
  · obtain ⟨err, herr⟩ := herr
    exact ⟨_, .failed hreplies hnot herr (describes_iff.2 rfl)⟩
  · have hdisposed := (of_decide_eq_true hends).resolve_left herr
    exact ⟨_, .answered hreplies hnot (not_exists.1 herr) hdisposed (lastResponse_iff.2 rfl)⟩

/-- A request ends in one way, as its replies decide. -/
theorem gather_eq_some_iff {id : String} {replies : List Reply} {outcome : Except Failure Json} :
    (start id).gather replies = some outcome ↔ Decided replies outcome := by
  refine ⟨fun h => ?_, gather_of_decided⟩
  by_cases hends : ∃ r ∈ replies, r.Ends
  · obtain ⟨decided, hdecided⟩ := exists_decided hends
    rw [gather_of_decided hdecided, Option.some.injEq] at h
    exact h ▸ hdecided
  · rw [gather_of_not_ends fun r hr hr' => hends ⟨r, hr, hr'⟩] at h
    cases h

/-- A request goes on as long as no reply ends it. -/
theorem gather_eq_none_iff {id : String} {replies : List Reply} :
    (start id).gather replies = none ↔ ∀ r ∈ replies, ¬r.Ends := by
  refine ⟨fun h r hr hends => ?_, gather_of_not_ends⟩
  obtain ⟨outcome, hdecided⟩ := exists_decided ⟨r, hr, hends⟩
  rw [gather_of_decided hdecided] at h
  cases h

end Collector

/-! ## Awaiting -/

/-- What an outcome makes of a task that waits for it. -/
def awaited : Option (Except Failure Json) → Except Stop (Option Json)
  | none => .ok none
  | some (.ok report) => .ok (some report)
  | some (.error failure) => .error (.failed failure)

/-- Waiting for the replies writes down which packets cannot be read, and comes to what is
collected. -/
theorem exec_await (c : Collector) (payloads : List String) (l : Ledger) :
    (Task.exec (await c payloads) l).1 = awaited (c.outcome? payloads) := by
  induction payloads generalizing c l with
  | nil => rfl
  | cons payload rest ih =>
    rw [await, Collector.outcome?, Collector.accept]
    cases c.read payload with
    | malformed reason =>
      simp only [Task.exec_bind, Task.exec_write]
      exact ih c _
    | foreign => exact ih c l
    | reply r =>
      dsimp only
      cases c.take r with
      | mk outcome c₁ =>
        cases outcome with
        | none => exact ih c₁ l
        | some outcome => cases outcome <;> rfl

/-- **Replies in any order.** Whatever comes in on the channel, a request ends as the replies to it
decide: it does not matter which other packets there are and where, and without a reply that ends
it, it goes on. -/
theorem collection_exact (id : String) (payloads : List String) :
    (Collector.start id).outcome? payloads =
        (Collector.start id).outcome?
          (payloads.filter fun payload => (replyIn? id payload).isSome) ∧
      (∀ outcome, (Collector.start id).outcome? payloads = some outcome ↔
        Decided (repliesTo id payloads) outcome) ∧
      ((Collector.start id).outcome? payloads = none ↔ ∀ r ∈ repliesTo id payloads, ¬r.Ends) ∧
      ∀ l, (Task.exec (await (.start id) payloads) l).1 =
        awaited ((Collector.start id).outcome? payloads) := by
  have hgather (payloads : List String) :
      (Collector.start id).outcome? payloads =
      (Collector.start id).gather (repliesTo id payloads) :=
    Collector.outcome?_eq_gather _ payloads
  refine ⟨?_, ?_, ?_, fun l => exec_await _ payloads l⟩
  · rw [hgather, hgather, repliesTo_filter]
  · intro outcome
    rw [hgather]
    exact Collector.gather_eq_some_iff
  · rw [hgather]
    exact Collector.gather_eq_none_iff

/-- A reply to another request and a text that is no packet come in before the answer and the mark
that it was the last one. -/
example :
    ((Collector.start "7").outcome? ["\x7b\"id\":\"8\",\"err\":\"late\"\x7d", "no packet",
      "\x7b\"id\":\"7\",\"response\":[1,2]\x7d", "\x7b\"id\":\"7\",\"isDisposed\":true\x7d"]).map
        (·.map Json.text) = some (.ok "[1,2]") := by
  decide +kernel

end Sync

end Intranet
