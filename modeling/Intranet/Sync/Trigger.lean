import Intranet.Ledger
import Intranet.Sync.Reply

/-!
# Triggering the sync service

A request is published and its replies are awaited. What becomes of it depends on how many services
heard it, on the packets that come in, and on whether the channel is closed or stays silent until
the time is over.
-/

namespace Intranet.Sync

/-- What is sent for a request, in order: first the replies are asked for, so that no fast one is
missed, then the request is published. -/
def messages (pattern id requestedBy : String) : List (List String) :=
  [["SUBSCRIBE", replyChannel pattern], ["PUBLISH", pattern, request pattern id requestedBy]]

/-- What is heard after a request was published. -/
structure Hearing where
  /-- How many services heard the request, or why it was not published. -/
  receivers : Except String Int
  /-- The packets in order, without those that are no text. -/
  packets : List String
  /-- Whether the channel is closed after the last packet. Otherwise it stays silent. -/
  closes : Bool

/-- The failure when no service can be reached. -/
def unavailable : Failure := .unavailable "Sync microservice unavailable"

/-- Writes down why packets cannot be read, up to the one that ends the request, and gives its
end. -/
def await : Collector → List String → Task Ledger (Option Json)
  | _, [] => pure none
  | c, payload :: rest => do
    match c.read payload with
    | .malformed reason =>
      Task.write .debug ("Ignoring malformed sync reply: " ++ reason.located)
      await c rest
    | .foreign => await c rest
    | .reply r =>
      match c.take r with
      | (some outcome, _) => some <$> Task.check outcome
      | (none, c) => await c rest

/-- The report of the service on a request, which is waited for so many seconds. -/
def trigger (pattern id requestedBy : String) (seconds : Nat) (hearing : Hearing) :
    Task Ledger Json := do
  match hearing.receivers with
  | .error reason =>
    Task.write .error ("Sync microservice transport failed: " ++ reason)
    Task.fail unavailable
  | .ok receivers =>
    if receivers = 0 then
      Task.write .warn ("No sync service is listening on '" ++ pattern ++ "'")
      Task.fail unavailable
    Task.write .info ("Directory sync " ++ id ++ " requested by " ++ requestedBy)
    match ← await (.start id) hearing.packets with
    | some report => return report
    | none =>
      if hearing.closes then Task.fail (.unavailable "Sync reply channel closed")
      let time := if seconds = 0 then "0ns" else toString seconds ++ "s"
      Task.write .warn ("Directory sync " ++ id ++ " timed out after " ++ time)
      Task.fail (.unavailable "Sync microservice did not answer in time")

end Intranet.Sync
