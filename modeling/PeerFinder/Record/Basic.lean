import PeerFinder.Error
import PeerFinder.Peer

/-!
# Provider records

What a node publishes to advertise itself: the bytes of its identity, the addresses it can be
dialed at in the order it gave them, and the Unix time of publication. The bytes need not be a
valid identity; `ProviderRecord.peerId` says whether they are.
-/

namespace PeerFinder

/-- The content of one advertisement. -/
@[ext]
structure ProviderRecord where
  nodeId : List UInt8
  length_eq : nodeId.length = 32
  addresses : List Address
  publishedAt : UInt64

instance : DecidableEq ProviderRecord := fun _ _ =>
  decidable_of_iff _ ProviderRecord.ext_iff.symm

namespace ProviderRecord

/-- A record for a node, stamped with a Unix time. -/
def ofPeer (id : PeerId) (addresses : List Address) (unixSeconds : Nat) : ProviderRecord :=
  ⟨id.bytes, id.length_eq, addresses, UInt64.ofNat unixSeconds⟩

/-- The identity in a record. -/
def peerId (record : ProviderRecord) : Except Error PeerId :=
  match PeerId.ofBytes? record.nodeId with
  | some id => .ok id
  | none => .error (.dht ("invalid node_id in record: " ++ PeerId.notOnCurve))

/-- The identity and addresses in a record. -/
def peerInfo (record : ProviderRecord) : Except Error PeerInfo :=
  record.peerId.map fun id => PeerInfo.ofList id record.addresses

end ProviderRecord

end PeerFinder
