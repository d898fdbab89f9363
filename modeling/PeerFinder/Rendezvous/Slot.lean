import PeerFinder.Curve.Signature
import PeerFinder.Digest.Sha256

/-!
# Provider slots

Providers under one label share a number of slots for every minute of Unix time. Everyone who knows
the label can work out where a slot lives and how to sign for it: a key pair and a salt are derived
from label, minute and index. A `Layout` is such a derivation; `Slot.layout` is the one in use.
-/

namespace PeerFinder.Rendezvous

/-- A minute of Unix time. -/
abbrev Minute := UInt64

/-- The minute of a Unix time in seconds. -/
def minuteOf (unixSeconds : Nat) : Minute :=
  UInt64.ofNat (unixSeconds / 60)

/-- The minute before, or the first one. -/
def previousMinute (minute : Minute) : Minute :=
  if minute = 0 then 0 else minute - 1

/-- A slot: the label, the minute, and its number in that minute. -/
structure Slot where
  label : List UInt8
  minute : Minute
  index : UInt8
deriving DecidableEq

/-- Where slots live in a store with addresses `κ`, and how what they hold is signed. -/
structure Layout (κ : Type) where
  address : Slot → κ
  sign : Slot → (sequence : Int) → (value : List UInt8) → List UInt8

/-- The address of a slot in the distributed table. -/
structure SlotAddress where
  publicKey : List UInt8
  salt : List UInt8
deriving DecidableEq

namespace Slot

/-- The eight bytes of a number, the lowest first. -/
def littleEndian (number : UInt64) : List UInt8 :=
  (List.range 8).map fun place => (number >>> UInt64.ofNat (8 * place)).toUInt8

/-- What the key pair of a slot is derived under. -/
def keyDomain : List UInt8 :=
  "iroh-peer-discovery/slot-key/v2".toUTF8.toList

/-- What the salt of a slot is derived under. -/
def saltDomain : List UInt8 :=
  "iroh-peer-discovery/slot-salt/v2".toUTF8.toList

/-- The bytes that are hashed for a slot under a domain. -/
def material (domain : List UInt8) (slot : Slot) : List UInt8 :=
  domain ++ littleEndian (UInt64.ofNat slot.label.length) ++ slot.label
    ++ littleEndian slot.minute ++ [slot.index]

/-- The seed of the key pair of a slot. -/
def keySeed (slot : Slot) : List UInt8 :=
  Digest.Sha256.digest (slot.material keyDomain)

/-- The salt of a slot. -/
def salt (slot : Slot) : List UInt8 :=
  Digest.Sha256.digest (slot.material saltDomain)

/-- The public key and salt of a slot. -/
def address (slot : Slot) : SlotAddress :=
  ⟨Curve.Signature.publicKey slot.keySeed, slot.salt⟩

/-- The bytes that are signed for an item with a salt. -/
def signable (salt : List UInt8) (sequence : Int) (value : List UInt8) : List UInt8 :=
  s!"4:salt{salt.length}:".toUTF8.toList ++ salt
    ++ s!"3:seqi{sequence}e1:v{value.length}:".toUTF8.toList ++ value

/-- The signature of an item in a slot. -/
def sign (slot : Slot) (sequence : Int) (value : List UInt8) : List UInt8 :=
  Curve.Signature.sign slot.keySeed (signable slot.salt sequence value)

/-- The derivation in use. -/
def layout : Layout SlotAddress :=
  ⟨address, sign⟩

end Slot

end PeerFinder.Rendezvous
