import PeerFinder.Curve.Edwards
import PeerFinder.Digest.Sha512

/-!
# Key pairs and signatures

A key pair is derived from a secret seed of 32 bytes. A signature of a message is deterministic:
its nonce comes from the seed and the message.
-/

namespace PeerFinder.Curve.Signature

open Edwards

/-- The secret scalar of a seed: the lower half of its digest with the three lowest bits and the
highest bit cleared and the bit below that one set. -/
def secretScalar (seed : List UInt8) : Nat :=
  let half := littleEndian ((Digest.Sha512.digest seed).take 32)
  half % Nat.pow 2 254 / 8 * 8 + Nat.pow 2 254

/-- The public key of a seed. -/
def publicKey (seed : List UInt8) : List UInt8 :=
  multiple (secretScalar seed)

/-- The digest of a byte string as a number modulo the order of the base point. -/
def challenge (bytes : List UInt8) : Nat :=
  littleEndian (Digest.Sha512.digest bytes) % order

/-- The signature of a message: the 32 bytes of the nonce point and the 32 of the response. -/
def sign (seed message : List UInt8) : List UInt8 :=
  let nonce := challenge ((Digest.Sha512.digest seed).drop 32 ++ message)
  let commitment := multiple nonce
  let response := nonce + challenge (commitment ++ publicKey seed ++ message) * secretScalar seed
  commitment ++ bytesOf 32 (response % order)

end PeerFinder.Curve.Signature
