import PeerFinder.Error
import PeerFinder.PeerId

/-!
# Notices

What a node notes about its own work, by event. Every notice has a message and named fields.
-/

namespace PeerFinder

/-- An event that a node notes. -/
inductive Notice where
  | population (total connectable : Nat)
  | eviction (removed remaining : Nat)
  | evictionStopped
  | seedRefused (peer : PeerId) (attempt attempts : Nat) (error : Error)
  | seedConnected (peer : PeerId) (attempt : Nat)
  | seedLost (peer : PeerId)
  | seedReconnected (peer : PeerId)
  | seedStillLost (peer : PeerId) (error : Error)
  | seedIgnored (error : Error)
  | queryComplete (mechanism : String) (found new : Nat)
  | queryTimedOut (mechanism : String)
  | queryFailed (mechanism : String) (error : Error)
  | subscriptionEnded
  | publisherRunning
  | advertised (label : String)
  | advertiseFailed (label : String) (error : Error)
  | recordUnreadable (minute index : Nat) (error : Error)
  | slotTaken (index : Nat)
  | peerConnected (peer : PeerId)
  | peerUnreachable (peer : PeerId) (error : Error)
  | noRoutingTable
deriving DecidableEq

namespace Notice

/-- The message of a notice. -/
def message : Notice → String
  | .population .. => "Peer population"
  | .eviction removed _ =>
      if 0 < removed then "evicted stale low-trust peers" else "eviction pass removed nothing"
  | .evictionStopped => "peer eviction loop stopped"
  | .seedRefused .. => "Failed to connect to seed"
  | .seedConnected .. => "Connected to seed"
  | .seedLost _ => "Lost connection to seed, reconnecting"
  | .seedReconnected _ => "Reconnected to seed"
  | .seedStillLost .. => "Seed reconnect failed"
  | .seedIgnored _ => "Ignoring seed"
  | .queryComplete .. => "Peer query complete"
  | .queryTimedOut _ => "Peer query timed out"
  | .queryFailed .. => "Peer query failed"
  | .subscriptionEnded => "local swarm subscription ended"
  | .publisherRunning => "DHT publisher already started"
  | .advertised _ => "advertised presence"
  | .advertiseFailed .. => "Failed to advertise presence"
  | .recordUnreadable .. => "Failed to decode DHT record"
  | .slotTaken _ => "slot held by another provider"
  | .peerConnected _ => "Connected to discovered peer"
  | .peerUnreachable .. => "Failed to connect to discovered peer"
  | .noRoutingTable => "DHT discovery enabled but no routing table supplied"

/-- The fields of a notice by name. -/
def fields : Notice → List (String × String)
  | .population total connectable =>
      [("total", toString total), ("connectable", toString connectable)]
  | .eviction removed remaining =>
      [("removed", toString removed), ("remaining", toString remaining)]
  | .evictionStopped => []
  | .seedRefused peer attempt attempts error =>
      [("peer", peer.text), ("attempt", toString attempt), ("max_attempts", toString attempts),
       ("error", error.message)]
  | .seedConnected peer attempt => [("peer", peer.text), ("attempt", toString attempt)]
  | .seedLost peer => [("peer", peer.text)]
  | .seedReconnected peer => [("peer", peer.text)]
  | .seedStillLost peer error => [("peer", peer.text), ("error", error.message)]
  | .seedIgnored error => [("error", error.message)]
  | .queryComplete mechanism found new =>
      [("mechanism", mechanism), ("found", toString found), ("new", toString new)]
  | .queryTimedOut mechanism => [("mechanism", mechanism)]
  | .queryFailed mechanism error => [("mechanism", mechanism), ("error", error.message)]
  | .subscriptionEnded => []
  | .publisherRunning => []
  | .advertised label => [("label", label)]
  | .advertiseFailed label error => [("label", label), ("error", error.message)]
  | .recordUnreadable minute index error =>
      [("minute", toString minute), ("index", toString index), ("error", error.message)]
  | .slotTaken index => [("index", toString index)]
  | .peerConnected peer => [("peer", peer.text)]
  | .peerUnreachable peer error => [("peer", peer.text), ("error", error.message)]
  | .noRoutingTable => []

end Notice

end PeerFinder
