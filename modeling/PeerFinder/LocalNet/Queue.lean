import PeerFinder.Activity
import PeerFinder.Peer
import PeerFinder.Scope

/-!
# The queue of heard peers

Peers heard on the local network wait in a queue of bounded size until a query takes them. Queries
take turns: those that drain the queue stand in a line, and only the first one may take peers.
-/

namespace PeerFinder.LocalNet

/-- The heard peers in order, and the tickets of the drains in line. -/
structure Queue where
  localId : PeerId
  heard : List Sighting := []
  line : List Nat := []
  issued : Nat := 0

namespace Queue

/-- The most peers that wait. -/
def capacity : Nat := 100

/-- Put a peer at the end; false if it is this node or there is no room. -/
def offer (queue : Queue) (sighting : Sighting) : Bool × Queue :=
  if sighting.id = queue.localId then (false, queue)
  else if capacity ≤ queue.heard.length then (false, queue)
  else (true, { queue with heard := queue.heard ++ [sighting] })

/-- Join the end of the line. -/
def enter (queue : Queue) : Nat × Queue :=
  (queue.issued,
    { queue with line := queue.line ++ [queue.issued], issued := queue.issued + 1 })

/-- Leave the line, from wherever one stands in it. -/
def leave (queue : Queue) (ticket : Nat) : Queue :=
  { queue with line := queue.line.filter (· ≠ ticket) }

/-- Whether a ticket is the first in line. -/
def isFirst (queue : Queue) (ticket : Nat) : Bool :=
  queue.line.head? = some ticket

end Queue

/-- A query that drains the queue: its ticket, the scope it must not outlive, how many peers it
wants, and those it has, in order. -/
structure Drain where
  ticket : Nat
  scope : Scope
  limit : Nat
  found : List Sighting := []

namespace Drain

/-- The drain after taking a peer: a peer that it has already is dropped. -/
def take (drain : Drain) (sighting : Sighting) : Drain :=
  if drain.found.any (·.id == sighting.id) then drain
  else { drain with found := drain.found ++ [sighting] }

/-- A step of a drain: once it is first in line it takes peers one by one until it has enough or its
scope is done, and then leaves the line. -/
def step (tree : ScopeTree) (now : Clock.Instant) :
    Activity.CallStep Queue Drain (List Sighting) :=
  fun queue drain =>
    if !queue.isFirst drain.ticket then none
    else if drain.limit ≤ drain.found.length || drain.scope.isDone tree now then
      some (queue.leave drain.ticket, .inr drain.found)
    else
      match queue.heard with
      | [] => none
      | sighting :: rest => some ({ queue with heard := rest }, .inl (drain.take sighting))

/-- When a drain may go on by itself: at its deadline once it is first in line. -/
def wake (drain : Drain) (queue : Queue) : Option Clock.Instant :=
  if queue.isFirst drain.ticket then drain.scope.deadline else none

end Drain

end PeerFinder.LocalNet
