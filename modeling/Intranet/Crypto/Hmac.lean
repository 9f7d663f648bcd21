import Intranet.Crypto.Sha256

/-!
# HMAC-SHA256

A hash of a message that only the holder of a key can make.
-/

namespace Intranet.Crypto.Hmac

/-- The length of a block of the hash function, in bytes. -/
def blockLength : Nat := 64

/-- A key of the length of a block: longer ones are hashed, shorter ones filled up with zeros. -/
def blockKey (key : List UInt8) : List UInt8 :=
  let key := if key.length > blockLength then Sha256.hash key else key
  key ++ List.replicate (blockLength - key.length) 0

/-- The keyed hash of a message. -/
def mac (key message : List UInt8) : List UInt8 :=
  let key := blockKey key
  Sha256.hash (key.map (· ^^^ 0x5c) ++ Sha256.hash (key.map (· ^^^ 0x36) ++ message))

theorem length_mac (key message : List UInt8) : (mac key message).length = 32 :=
  Sha256.length_hash _

end Intranet.Crypto.Hmac
