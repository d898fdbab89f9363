import PeerFinder.Coordinator.Intake
import PeerFinder.Environment

/-!
# Commands and answers

A simulation is told what to do by commands, to the clock and the scopes, the peer store, the
transport, the local network, the routing table, the mechanisms and the coordinator. Every command
has an answer.
-/

namespace PeerFinder.Simulation

/-- Something to do. Mechanisms, scopes and calls in the background go by name. -/
inductive Command where
  -- the clock, scopes and calls
  | advance (span : Clock.Span)
  | jump (span : Clock.Span)
  | join (name : String)
  | scope (name : String) (parent : Option String) (timeout : Option Clock.Span) (rewrap : Bool)
  | scopeInfo (name : String)
  | cancel (name : String)
  | waitDone (name : String)
  | waitCancelled (name : String)
  | log (messages : List String)
  -- the peer store
  | add (sighting : Sighting) (source : String)
  | setStatus (id : PeerId) (status : PeerStatus) (error : Option String)
  | get (id : PeerId)
  | all
  | withStatus (statuses : List PeerStatus)
  | connectable
  | evict
  | size
  | evictable (id : PeerId) (now : Clock.Instant) (retention : Clock.Span)
  | limits
  | runEviction (scope : String)
  | autoConnect (sighting : Sighting) (source : String) (timeout : Option Clock.Span)
  -- the transport
  | setReachable (id : PeerId) (reachable : Bool)
  | disconnect (id : PeerId)
  | addKnown (info : PeerInfo)
  | setDelay (delay : Clock.Span)
  | connect (info : PeerInfo)
  | isConnected (id : PeerId)
  | knownPeers
  | localNode
  | attempts (id : Option PeerId)
  | localId
  -- the local network
  | announce (announcement : Announcement)
  | closeSwarm
  | announced
  -- the routing table
  | addProvider (info : PeerInfo)
  | provided
  | routingState
  | bootstrap
  | closeRouting
  | provide (label : String) (record : ProviderRecord)
  | lookup (label : String)
  | dumpItems (signatures : Bool)
  | plantItem (get : Nat) (value : List UInt8) (sequence : Int)
  | removeItem (get : Nat)
  | setOffline (offline : Bool)
  -- the mechanisms
  | name (mechanism : String)
  | start (mechanism : String) (scope : Option String)
  | stop (mechanism : String)
  | find (mechanism : String) (scope : Option String) (limit : Nat) (sorted : Bool)
  | offer (sighting : Sighting)
  | seeds
  | addSeed (text : String)
  | connectedSeeds
  | label
  | scripted
  -- the coordinator
  | startCoordinator
  | stopCoordinator
  | dropCoordinator
  | active
  | found (sighting : Sighting) (source : String)
  | foundMany (peers : List PeerInfo) (source : String)
  | observe (name : String)
  | observations
  | subscribe (name : String)
  | receive (name : String)

/-- What can be seen of a scope. -/
structure ScopeView where
  isCancelled : Bool
  isDone : Bool
  deadline : Option Clock.Instant
deriving DecidableEq, Repr

/-- The answer to a command. -/
inductive Answer where
  /-- It was done. -/
  | done
  /-- It was begun in the background. -/
  | spawned
  /-- A call in the background has not ended. -/
  | pending
  /-- There is nothing of that name or identity. -/
  | absent
  /-- The command names something that this simulation lacks. -/
  | misplaced
  /-- Nothing will ever happen that the command waits for. -/
  | never
  /-- A call in the background has ended. -/
  | joined (time : Clock.Instant) (answer : Answer)
  | flag (flag : Bool)
  | count (count : Nat)
  | text (text : String)
  | texts (texts : List String)
  | result (result : Except Error Unit)
  | id (id : PeerId)
  | ids (ids : List PeerId)
  | infos (infos : List PeerInfo)
  | localNode (id : PeerId) (addresses : List Address)
  | attempts (attempts : List (Clock.Instant × PeerId))
  | scope (view : ScopeView)
  | entry (record : PeerRecord)
  | entries (records : List PeerRecord)
  | upsert (outcome : Upsert)
  | upserts (outcomes : List Upsert)
  | size (size : Nat)
  | limits (limits : StoreLimits)
  | evictable (evictable : Bool) (info : PeerInfo)
  | peers (result : Except Error (List Sighting)) (sorted : Bool)
  | announced (announcements : List Announcement)
  | provided (records : List (String × ProviderRecord))
  | routingState (bootstraps : Nat) (closed : Bool)
  | accessed (result : Except Error Unit)
      (accesses : List (Rendezvous.Access Rendezvous.SlotAddress))
  | lookup (found : List Rendezvous.Provider) (addresses : List Rendezvous.SlotAddress)
  | items (signatures : Bool) (items : List (Rendezvous.SlotAddress × Rendezvous.Item))
  | scripted (mechanisms : List Scripted)
  | observations (observations : List Coordinator.Observation)
  | events (events : List Coordinator.Event) (ended : Bool)
  | log (entries : Journal)

end PeerFinder.Simulation
