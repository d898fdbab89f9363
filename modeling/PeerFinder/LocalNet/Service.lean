import PeerFinder.Announcement
import PeerFinder.Journal
import PeerFinder.LocalNet.Queue

/-!
# The mechanism of the local network

A node announces itself on the local network with the tag of its network and its services, and
listens to the others. Whoever carries the same tag is queued until a query takes it.
-/

namespace PeerFinder.LocalNet

/-- The network a node announces itself on. -/
structure Swarm where
  offersSubscription : Bool := true
  isOpen : Bool := true
  /-- What was announced by this node, in order. -/
  published : List Announcement := []

/-- A subscription to the announcements of others: those not yet seen, and whether more can come. -/
structure Listener where
  pending : List Announcement := []
  ended : Bool := false

namespace Listener

/-- Hand an announcement over to a listener. -/
def deliver (listener : Listener) (announcement : Announcement) : Listener :=
  if listener.ended then listener
  else { listener with pending := listener.pending ++ [announcement] }

/-- A step of a listener: one announcement is queued if it carries the tag. -/
def step (tag : String) (moment : Moment) : Activity.Step (Noted Queue) Listener :=
  fun queue listener =>
    if moment.stops (listener.ended || !listener.pending.isEmpty) then some (queue, none)
    else
      match listener.pending with
      | announcement :: rest =>
          let queued :=
            match announcement.sighting? tag with
            | some sighting => queue.modify fun queue => (queue.offer sighting).2
            | none => queue
          some (queued, some { listener with pending := rest })
      | [] =>
          if listener.ended then some (queue.note moment.now .subscriptionEnded, none) else none

end Listener

/-- The state of the mechanism. -/
structure Service where
  info : PeerInfo
  tag : String := "iroh-peer-discovery"
  services : ServiceSet := ∅
  queryTimeout : Clock.Span := 5000
  /-- Whether the mechanism still holds its network. -/
  bound : Bool
  queue : Queue
  listeners : List Listener := []
  shutdown : Token

namespace Service

/-- The name of the mechanism. -/
def name : String := "mdns"

/-- Announce this node and begin to listen. -/
def start (service : Service) (swarm? : Option Swarm) :
    Except Error (Service × Option Swarm) := do
  let data ← (Announcement.encode service.tag service.services.toList).mapError fun error =>
    .mechanismStart name error.message
  match swarm? with
  | some swarm =>
      if service.bound && swarm.offersSubscription then
        .ok ({ service with listeners := service.listeners ++ [{ ended := !swarm.isOpen }] },
          some { swarm with published := swarm.published ++ [⟨service.info, some data⟩] })
      else noSubscription
  | none => noSubscription
where
  /-- The failure of a start without announcements to listen to. -/
  noSubscription : Except Error (Service × Option Swarm) :=
    .error (.mechanismStart name "local swarm offers no subscription")

/-- End every listener and let go of the network. -/
def stop (service : Service) : Service :=
  { service with listeners := [], bound := false }

/-- Put a peer into the queue. -/
def offer (service : Service) (sighting : Sighting) : Bool × Service :=
  let (accepted, queue) := service.queue.offer sighting
  (accepted, { service with queue := queue })

/-- Begin a query. -/
def find (service : Service) (tree : ScopeTree) (now : Clock.Instant) (scope : Scope)
    (limit : Nat) : Drain × Service × ScopeTree :=
  let (scope, tree) := scope.withTimeout now service.queryTimeout tree
  let (ticket, queue) := service.queue.enter
  ({ ticket := ticket, scope := scope, limit := limit }, { service with queue := queue }, tree)

/-- Take the listeners on, and tell whether any moved. -/
def advance (service : Service) (moment : Moment) (journal : Journal) :
    Noted Service × Bool :=
  let (queue, listeners, moved) :=
    Activity.runAll (Listener.step service.tag moment) ⟨service.queue, journal⟩ service.listeners
  (queue.modify fun queue => { service with queue := queue, listeners := listeners }, moved)

/-- Hand an announcement over to every listener. -/
def deliver (service : Service) (announcement : Announcement) : Service :=
  { service with listeners := service.listeners.map (·.deliver announcement) }

/-- End the subscriptions of all listeners. -/
def endSubscriptions (service : Service) : Service :=
  { service with listeners := service.listeners.map ({ · with ended := true }) }

end Service

end PeerFinder.LocalNet
