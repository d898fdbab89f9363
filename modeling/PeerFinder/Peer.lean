import PeerFinder.Address.Printer
import PeerFinder.PeerId

/-!
# Peers as mechanisms report them

`PeerInfo` pairs an identity with the addresses the peer may be reached at, and `Sighting` adds the
services it advertised.
-/

namespace PeerFinder

/-- An identity with the addresses known for it. -/
structure PeerInfo where
  id : PeerId
  addresses : AddressSet
deriving DecidableEq

namespace PeerInfo

/-- The identity with the addresses of a list. -/
def ofList (id : PeerId) (addresses : List Address) : PeerInfo :=
  ⟨id, .ofList addresses⟩

/-- The same peer with more addresses. -/
def withAddresses (info : PeerInfo) (addresses : List Address) : PeerInfo :=
  { info with addresses := info.addresses.insertMany addresses }

/-- The identity, and after an at sign the addresses with commas between them. -/
def text (info : PeerInfo) : String :=
  match info.addresses.toList with
  | [] => info.id.text
  | addresses => info.id.text ++ "@" ++ String.intercalate "," (addresses.map Address.text)

end PeerInfo

/-- Names of services, listed in the order of their characters. -/
abbrev ServiceSet := Std.ExtTreeSet String compare

/-- A peer as a mechanism reports it. -/
structure Sighting where
  info : PeerInfo
  services : ServiceSet
deriving DecidableEq

/-- The identity of the peer. -/
def Sighting.id (sighting : Sighting) : PeerId :=
  sighting.info.id

/-- A report that carries no services. -/
def Sighting.ofInfo (info : PeerInfo) : Sighting :=
  ⟨info, ∅⟩

end PeerFinder
