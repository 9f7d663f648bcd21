import Intranet.Http.Basic
import Intranet.Http.Form
import Intranet.Http.MediaType
import Intranet.Json.Decoder
import Intranet.Json.Printer
import Intranet.Ledger

/-!
# The document service

The document backend behind an HTTP service: the message that each call sends, and what is made of
the reply to it.
-/

namespace Intranet.Documents.Remote

/-! ## Messages -/

/-- A message to the service. -/
structure Message where
  method : String
  /-- The target at the service, below its address. -/
  target : String
  authorization : String
  contentType : Option String
  body : List UInt8
  deriving DecidableEq, Repr

/-- A reply of the service. -/
structure Answer where
  status : Nat
  contentType : Option String
  body : List UInt8
  deriving DecidableEq, Repr

/-- The address of the service, without slashes at its end. -/
def addressOf (url : String) : String :=
  String.ofList (url.toList.reverse.dropWhile (· = '/')).reverse

/-- The resource that a request is about. -/
def resource : Request → String
  | .listFolder => "folders"
  | .putFile _ | .getFile => "files"
  | .fileUrl => "shares"

/-- The method of a request. -/
def method : Request → String
  | .listFolder | .getFile => "GET"
  | .putFile _ => "PUT"
  | .fileUrl => "POST"

/-- The target of a call. The path of the document is part of it, unless it is sent in the body. -/
def target (call : Call) : String :=
  match call.request with
  | .fileUrl => "/" ++ resource call.request
  | _ => "/" ++ resource call.request ++ "?path=" ++ Http.Form.encodePart call.path

/-- The message of a call. -/
def message (call : Call) : Message where
  method := method call.request
  target := target call
  authorization := Http.Basic.header call.credential.username call.credential.secret
  contentType := match call.request with
    | .fileUrl => some "application/json"
    | _ => none
  body := match call.request with
    | .putFile content => content
    | .fileUrl => Utf8.encode (Json.mk [("path", .str call.path)]).text
    | _ => []

/-! ## Text of replies -/

/-- The characters of the bytes 0x80 to 0x9F in Western European text. -/
def westernTable : List Nat :=
  [0x20AC, 0x81, 0x201A, 0x192, 0x201E, 0x2026, 0x2020, 0x2021, 0x2C6, 0x2030, 0x160, 0x2039,
    0x152, 0x8D, 0x17D, 0x8F, 0x90, 0x2018, 0x2019, 0x201C, 0x201D, 0x2022, 0x2013, 0x2014, 0x2DC,
    0x2122, 0x161, 0x203A, 0x153, 0x9D, 0x17E, 0x178]

/-- The character of a byte in Western European text. -/
def westernChar (b : UInt8) : Char :=
  let n := b.toNat
  Char.ofNat (if 0x80 ≤ n ∧ n < 0xA0 then westernTable.getD (n - 0x80) n else n)

/-- The names of the Western European character set. -/
def westernNames : List String :=
  ["iso-8859-1", "iso8859-1", "iso_8859-1", "latin1", "l1", "windows-1252", "cp1252",
    "us-ascii", "ascii"]

/-- The character set that a content type names, in small letters. -/
def charset? (contentType : String) : Option String :=
  ((contentType.toList.splitOn ';').drop 1).findSome? fun parameter =>
    match (Text.trimL parameter).span (· ≠ '=') with
    | (name, _ :: value) =>
      if Text.lower (String.ofList name) = "charset" then
        some (Text.lower (String.ofList (value.filter (· ≠ '"'))))
      else none
    | _ => none

/-- The text of a reply, in the character set that it names or else in UTF-8. -/
def Answer.text (a : Answer) : String :=
  match a.body with
  | 0xEF :: 0xBB :: 0xBF :: rest => Utf8.decodeLossy rest
  | body =>
    if (a.contentType.bind charset?).any fun name => westernNames.contains name then
      String.ofList (body.map westernChar)
    else Utf8.decodeLossy body

/-! ## Outcomes -/

/-- A reply that says that all went well. -/
def Answer.isSuccess (a : Answer) : Bool := 200 ≤ a.status && a.status < 300

/-- The status that a reply without success is passed on with: its own if it says what is wrong. -/
def Answer.failureStatus (a : Answer) : Nat :=
  if 400 ≤ a.status ∧ a.status < 600 then a.status else 502

/-- The message of a reply without success. -/
def Answer.failureMessage (a : Answer) : String :=
  if Text.isBlankText a.text then "Document backend returned HTTP " ++ toString a.status
  else a.text

/-- Goes on with a reply of success; anything else is written down and fails. -/
def received (address : String) (call : Call) : Option Answer → Task Ledger Answer
  | none => do
    let problem := "error sending request for url (" ++ address ++ target call ++ ")"
    Task.write .warn ("Document backend request failed: " ++ problem)
    Task.fail (.relayed 502 ("Document backend unreachable: " ++ problem))
  | some a => do
    if a.isSuccess then return a
    Task.write .warn
      ("Document backend answered " ++ toString a.status ++ ": " ++ a.failureMessage)
    Task.fail (.relayed a.failureStatus a.failureMessage)

/-- A link to a document, as the service gives it. -/
def linkDecoder : Json.Decoder String :=
  .record "ShareLink"
    [.slot "url" .text (fun v _ => v) (fun (draft : Option String) => draft) true false]
    none (·.getD "")

/-- The failure of a reply that does not hold what was asked for. -/
def badReply : Failure :=
  .relayed 502 "Document backend sent an invalid response: error decoding response body"

/-- The value of the body of a reply. -/
def bodyAs {α : Type} (shape : Json.Decoder α) (a : Answer) : Task Ledger α :=
  Task.check ((shape.run a.body).mapError fun _ => badReply)

/-- What a reply holds for a request. -/
def content (a : Answer) : (request : Request) → Task Ledger request.Reply
  | .listFolder => bodyAs (.list Entry.decoder) a
  | .putFile _ => bodyAs Entry.decoder a
  | .getFile => pure a.body
  | .fileUrl => bodyAs linkDecoder a

/-- What is made of the reply to a call, which is missing when the service was not reached. -/
def outcome (address : String) (call : Call) (reply : Option Answer) :
    Task Ledger call.request.Reply := do
  content (← received address call reply) call.request

end Intranet.Documents.Remote
