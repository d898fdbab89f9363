/-!
# Configuration

The settings of every part of a node, with durations in whole seconds.
-/

namespace PeerFinder

/-- Settings of the announcements on the local network. -/
structure LocalNetSettings where
  enabled : Bool := true
  tag : String := "iroh-peer-discovery"
  queryTimeout : UInt64 := 5
  services : List String := []
deriving DecidableEq

/-- Settings of the seeds. -/
structure SeedSettings where
  enabled : Bool := true
  addresses : List String := []
  attempts : UInt32 := 3
  connectTimeout : UInt64 := 15
  initialBackoff : UInt64 := 1
  superviseInterval : UInt64 := 30
  reconnectTimeout : UInt64 := 10
deriving DecidableEq

/-- Settings of the lookups in a distributed table. -/
structure RendezvousSettings where
  enabled : Bool := false
  label : String := "iroh-peer-discovery"
  advertiseInterval : UInt64 := 60
  queryTimeout : UInt64 := 10
deriving DecidableEq

/-- Settings of the coordinator. -/
structure CoordinatorSettings where
  sweepInterval : UInt64 := 30
  queryLimit : UInt64 := 10
  queryTimeout : UInt64 := 10
  statsInterval : UInt64 := 60
  autoConnect : Bool := false
  connectTimeout : UInt64 := 10
deriving DecidableEq

/-- Settings of the peer store. -/
structure StoreSettings where
  maxPeers : UInt64 := 1000
  retention : UInt64 := 600
  evictionInterval : UInt64 := 600
deriving DecidableEq

/-- The settings of a node. -/
structure Config where
  localNet : LocalNetSettings := {}
  seeds : SeedSettings := {}
  rendezvous : RendezvousSettings := {}
  coordinator : CoordinatorSettings := {}
  store : StoreSettings := {}
deriving DecidableEq

end PeerFinder
