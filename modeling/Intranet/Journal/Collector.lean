import Intranet.Number.Bounded

/-!
# The collector of journals

Lines may be sent to a collector, each as one datagram. Nobody waits for it: a line counts as
written whether it arrives or not.
-/

namespace Intranet.Journal

/-- The largest datagram that can be sent, in bytes. -/
def largestDatagram : Nat := 65507

/-- What a collector receives of a line, if it listens. -/
def received (listening : Bool) (line : List UInt8) : Option (List UInt8) :=
  if listening ∧ line.length ≤ largestDatagram then some line else none

/-- How many bytes of a line count as written. -/
def written (line : List UInt8) : Nat := line.length

/-- Whether an address has a host and a port. -/
def isAddress (address : String) : Bool :=
  match address.toList.reverse.span (· ≠ ':') with
  | (port, _ :: host) => !host.isEmpty && (Decimal.bounded 65535 port.reverse).isOk
  | _ => false

end Intranet.Journal
