import Fanout.Hash.Sha256

/-!
The keyed digest of a message: the message is hashed under an inner form of the key and the result
under an outer one.
-/

namespace Fanout.Hash.Hmac

/-- The key as one block: hashed if it is longer, then filled up with zeros. -/
def keyBlock (key : Octets) : Octets :=
  let k := if 64 < key.length then Sha256.digest key else key
  k ++ List.replicate (64 - k.length) 0

def digest (key message : Octets) : Octets :=
  let k := keyBlock key
  let inner := Sha256.digest ((k.map (· ^^^ 0x36)) ++ message)
  Sha256.digest ((k.map (· ^^^ 0x5C)) ++ inner)

end Fanout.Hash.Hmac
