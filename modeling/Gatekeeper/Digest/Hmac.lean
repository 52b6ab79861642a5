import Gatekeeper.Digest.Sha2

/-!
# Keyed digests

The digest of a message under a key: the key, masked in two ways, goes before
the message and before the inner digest.
-/

namespace Gatekeeper
namespace Hmac

/-- The key in one block.  A key that is longer than a block is replaced by its digest. -/
def blockKey (hash : Hash) (key : List UInt8) : List UInt8 :=
  let short := if hash.blockSize < key.length then hash.digest key else key
  short ++ List.replicate (hash.blockSize - short.length) 0

def masked (mask : UInt8) (key : List UInt8) : List UInt8 :=
  key.map (· ^^^ mask)

def mac (hash : Hash) (key message : List UInt8) : List UInt8 :=
  let key := blockKey hash key
  hash.digest (masked 0x5C key ++ hash.digest (masked 0x36 key ++ message))

end Hmac
end Gatekeeper
