import Intranet.Documents.Entry

/-!
# The document backend

What answers the calls of the gateway. An answer may depend on the calls made before it, so a
backend that stores files is one too.
-/

namespace Intranet

/-- Why an operation stopped before its end. -/
inductive Stop where
  | failed (failure : Failure)
  /-- It broke down without raising a failure. -/
  | crashed (payload : Payload)
  deriving DecidableEq, Repr

namespace Documents

/-- What a request is answered with. -/
abbrev Request.Reply : Request → Type
  | listFolder => List Entry
  | putFile _ => Entry
  | getFile => List UInt8
  | fileUrl => String

/-- The backend: from the calls so far and the next one to its answer. -/
def Backend : Type := List Call → (call : Call) → Except Stop call.request.Reply

end Documents

end Intranet
