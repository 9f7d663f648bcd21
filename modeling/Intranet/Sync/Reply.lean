import Intranet.Failure
import Intranet.Json.Decoder
import Intranet.Json.Printer

/-!
# Requests to the sync service and their replies

A request is published on a channel and answered on another by packets that name the request. A
packet may carry an error, a response, or the mark that it is the last one.
-/

namespace Intranet.Sync

/-- The channel on which a request is answered. -/
def replyChannel (pattern : String) : String := pattern ++ ".reply"

/-- The packet of a request. -/
def request (pattern id requestedBy : String) : String :=
  (Json.obj [("pattern", .str pattern), ("data", .obj [("requestedBy", .str requestedBy)]),
    ("id", .str id)]).text

/-- A packet of an answer. -/
structure Reply where
  id : String
  response : Option Json
  err : Option Json
  isDisposed : Bool

namespace Reply

/-- A reply whose fields are being read. -/
structure Draft where
  id : Option String
  response : Option (Option Json)
  err : Option (Option Json)
  isDisposed : Option Bool

/-- The fields of a reply, of which only the first is required. -/
def fields : List (Json.Decoder.Field Draft) :=
  [.slot "id" .text (fun v d => { d with id := v }) Draft.id true false,
    .slot "response" (.nullable .any) (fun v d => { d with response := v })
      Draft.response false true,
    .slot "err" (.nullable .any) (fun v d => { d with err := v }) Draft.err false true,
    .slot "isDisposed" .flag (fun v d => { d with isDisposed := v }) Draft.isDisposed false true]

/-- The reply of a finished draft. -/
def Draft.finish (d : Draft) : Reply :=
  ⟨d.id.getD "", d.response.join, d.err.join, d.isDisposed.getD false⟩

/-- Reads a reply. -/
def decoder : Json.Decoder Reply :=
  .record "SyncReply" fields ⟨none, none, none, none⟩ Draft.finish

/-- The message of an error: a string, the message of an object, or else the text of the value. -/
def errorMessage (err : Json) : String :=
  match err with
  | .str s => s
  | .obj members =>
    match Members.get? "message" members with
    | some (.str s) => s
    | _ => err.text
  | _ => err.text

/-- What a reply says that is not null. -/
def said (value : Option Json) : Option Json := value.filter (!·.isNull)

end Reply

/-! ## Collecting replies -/

/-- The replies to one request so far: the last response. -/
structure Collector where
  id : String
  response : Option Json

namespace Collector

/-- No reply so far. -/
def start (id : String) : Collector := ⟨id, none⟩

/-- Takes a reply to the request and says how it ends, if it does. -/
def take (c : Collector) (reply : Reply) : Option (Except Failure Json) × Collector :=
  match Reply.said reply.err with
  | some err => (some (.error (.relayed 502 (Reply.errorMessage err))), c)
  | none =>
    let response := (Reply.said reply.response).or c.response
    if reply.isDisposed then (some (.ok (response.getD .null)), { c with response := none })
    else (none, { c with response := response })

/-- What a packet is to a request. -/
inductive Packet where
  | malformed (reason : Json.Failure)
  /-- It answers another request. -/
  | foreign
  | reply (r : Reply)

/-- Reads a packet. -/
def read (c : Collector) (payload : String) : Packet :=
  match Reply.decoder.runText payload with
  | .error reason => .malformed reason
  | .ok reply => if reply.id = c.id then .reply reply else .foreign

/-- Takes a packet and says how the request ends, if it does. -/
def accept (c : Collector) (payload : String) : Option (Except Failure Json) × Collector :=
  match c.read payload with
  | .reply r => c.take r
  | _ => (none, c)

/-- Takes packets one after the other and says for each how the request ends, if it does. -/
def acceptAll : Collector → List String → List (Option (Except Failure Json))
  | _, [] => []
  | c, payload :: rest =>
    let (outcome, c) := c.accept payload
    outcome :: acceptAll c rest

/-- How the request ends with the first packet that ends it. -/
def outcome? : Collector → List String → Option (Except Failure Json)
  | _, [] => none
  | c, payload :: rest =>
    match c.accept payload with
    | (some outcome, _) => some outcome
    | (none, c) => outcome? c rest

end Collector

end Intranet.Sync
