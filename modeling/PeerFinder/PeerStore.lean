import PeerFinder.Clock
import PeerFinder.Peer

/-!
# The peer store

Every peer that was ever reported, with how fresh and how reliable it is. Reports of a known peer
are merged into its record. A store holds a bounded number of peers and rejects new ones when it is
full. Connection outcomes move the reliability of a peer; a record that is stale and below the trust
threshold is evicted.
-/

namespace PeerFinder

/-- What is known of the connection to a peer. -/
inductive PeerStatus where
  /-- It was never dialed. -/
  | unknown
  /-- It is believed reachable. -/
  | connectable
  /-- The last dial failed. -/
  | unreachable
  /-- There is a live connection. -/
  | connected
deriving DecidableEq, Repr

/-- The name of a status. -/
def PeerStatus.text : PeerStatus → String
  | .unknown => "unknown"
  | .connectable => "connectable"
  | .unreachable => "unreachable"
  | .connected => "connected"

/-- Everything known about one peer. -/
structure PeerRecord where
  id : PeerId
  addresses : AddressSet
  firstSeen : Clock.Instant
  lastSeen : Clock.Instant
  source : String
  status : PeerStatus
  reliability : Float
  services : ServiceSet
  lastError : Option String
  connectCount : Nat

namespace PeerRecord

/-- Records below this reliability may be evicted. -/
def lowTrust : Float := 0.3

/-- The reliability of a peer that has just been found. -/
def initialReliability : Float := 0.5

/-- The reliability after a connection. -/
def reward (reliability : Float) : Float :=
  min (reliability + 0.1) 1.0

/-- The reliability after a failed dial. -/
def penalty (reliability : Float) : Float :=
  max (reliability - 0.2) 0.0

/-- The greatest number of connections that is counted. -/
def connectLimit : Nat := UInt32.size - 1

/-- The record of a first sighting. -/
def ofSighting (sighting : Sighting) (source : String) (now : Clock.Instant) : PeerRecord where
  id := sighting.id
  addresses := sighting.info.addresses
  firstSeen := now
  lastSeen := now
  source := source
  status := .unknown
  reliability := initialReliability
  services := sighting.services
  lastError := none
  connectCount := 0

/-- The record with another sighting merged into it. -/
def merge (record : PeerRecord) (sighting : Sighting) (source : String) (now : Clock.Instant) :
    PeerRecord :=
  { record with
    addresses := record.addresses ∪ sighting.info.addresses
    services := record.services ∪ sighting.services
    lastSeen := now
    source := source }

/-- The record after a connection outcome. -/
def withStatus (record : PeerRecord) (status : PeerStatus) (error : Option String)
    (now : Clock.Instant) : PeerRecord :=
  { record with
    status := status
    lastError := error
    lastSeen := now
    connectCount :=
      if status = .connected then min (record.connectCount + 1) connectLimit
      else record.connectCount
    reliability :=
      match status with
      | .connected => reward record.reliability
      | .unreachable => penalty record.reliability
      | .unknown | .connectable => record.reliability }

/-- Whether a record has not been seen for longer than the retention and is below the threshold. -/
def isEvictable (record : PeerRecord) (now : Clock.Instant) (retention : Clock.Span) : Bool :=
  retention < now - record.lastSeen && record.reliability < lowTrust

/-- The identity and addresses of a record. -/
def info (record : PeerRecord) : PeerInfo :=
  ⟨record.id, record.addresses⟩

end PeerRecord

/-- What became of a sighting. -/
inductive Upsert where
  /-- The peer is new. -/
  | inserted
  /-- The sighting was merged into the record of the peer. -/
  | updated
  /-- The peer is new and there is no room for it, or it is this node itself. -/
  | rejected
deriving DecidableEq, Repr

/-- The name of an outcome. -/
def Upsert.text : Upsert → String
  | .inserted => "inserted"
  | .updated => "updated"
  | .rejected => "rejected"

/-- How many peers are kept, and how long. -/
structure StoreLimits where
  /-- New identities are rejected when this many are kept. -/
  maxPeers : Nat := 1000
  /-- How long a peer survives without being seen before it may be evicted. -/
  retention : Clock.Span := 600000
  /-- Time between eviction passes. -/
  evictionInterval : Clock.Span := 600000
deriving DecidableEq, Repr

/-- The records of all known peers. -/
structure PeerStore where
  limits : StoreLimits := {}
  records : Std.ExtTreeMap PeerId PeerRecord := ∅

namespace PeerStore

/-- The record of a peer. -/
def get? (store : PeerStore) (id : PeerId) : Option PeerRecord :=
  store.records[id]?

/-- The number of records. -/
def size (store : PeerStore) : Nat :=
  store.records.size

/-- All records, ordered by identity. -/
def all (store : PeerStore) : List PeerRecord :=
  store.records.toList.map Prod.snd

/-- The records with one of the given statuses, ordered by identity. -/
def withStatus (store : PeerStore) (statuses : List PeerStatus) : List PeerRecord :=
  store.all.filter fun record => statuses.contains record.status

/-- The records of peers believed reachable, ordered by identity. -/
def connectable (store : PeerStore) : List PeerRecord :=
  store.withStatus [.connectable, .connected]

/-- Take in a sighting. -/
def addOrUpdate (store : PeerStore) (sighting : Sighting) (source : String)
    (now : Clock.Instant) : Upsert × PeerStore :=
  match store.get? sighting.id with
  | some record =>
      let merged := record.merge sighting source now
      (.updated, { store with records := store.records.insert sighting.id merged })
  | none =>
      if store.limits.maxPeers ≤ store.size then (.rejected, store)
      else
        let record := PeerRecord.ofSighting sighting source now
        (.inserted, { store with records := store.records.insert sighting.id record })

/-- Take in a connection outcome; false if the peer is not known. -/
def updateStatus (store : PeerStore) (id : PeerId) (status : PeerStatus) (error : Option String)
    (now : Clock.Instant) : Bool × PeerStore :=
  match store.get? id with
  | some record =>
      let updated := record.withStatus status error now
      (true, { store with records := store.records.insert id updated })
  | none => (false, store)

/-- Remove the evictable records and count them. -/
def evict (store : PeerStore) (now : Clock.Instant) : Nat × PeerStore :=
  let kept := store.records.filter fun _ record =>
    !record.isEvictable now store.limits.retention
  (store.size - kept.size, { store with records := kept })

end PeerStore

end PeerFinder
