import PeerFinder.Rendezvous.Lookup
import PeerFinder.Rendezvous.Publisher

/-!
# The mechanism of the routing table

A node advertises itself under a label in a routing table, and a query looks up everyone else who
did the same.
-/

namespace PeerFinder.Rendezvous

/-- The state of the mechanism. -/
structure Service where
  advertisement : Advertisement
  queryTimeout : Clock.Span := 10000
  /-- Whether a publisher was started and not stopped since. -/
  publishes : Bool := false
  publisher : Option Publisher := none
  shutdown : Token

namespace Service

/-- The name of the mechanism. -/
def name : String := "dht"

variable {κ : Type} [DecidableEq κ]

/-- Begin to publish, unless that was begun before. -/
def publish (service : Noted Service) (now : Clock.Instant) : Noted Service :=
  if service.state.publishes then service.note now .publisherRunning
  else service.modify ({ · with publishes := true, publisher := some .ready })

/-- Join the network and begin to publish. -/
def start (service : Noted Service) (now : Clock.Instant) (routing : Routing κ) :
    Except Error Unit × Noted Service × Routing κ :=
  match routing.bootstrap with
  | (.error error, routing) =>
      (.error (.mechanismStart name error.message), service, routing)
  | (.ok (), routing) => (.ok (), publish service now, routing)

/-- Stop publishing and leave the network. -/
def stop (service : Service) (routing : Routing κ) :
    Except Error Unit × Service × Routing κ :=
  let (result, routing) := routing.close
  (result, { service with publishes := false, publisher := none }, routing)

/-- Begin a query. -/
def find (service : Service) (routing : Routing κ) (tree : ScopeTree) (now : Clock.Instant)
    (scope : Scope) (limit : Nat) : Lookup × ScopeTree :=
  let (scope, tree) := scope.withTimeout now service.queryTimeout tree
  ({ localId := service.advertisement.info.id
     scope := scope
     limit := limit
     feed := routing.lookup service.advertisement.label }, tree)

/-- Take the publisher on, and tell whether it moved. -/
def advance (service : Service) (moment : Moment) (routing : Noted (Routing κ)) :
    Noted (Service × Routing κ) × Bool :=
  let (routing, publisher, moved) :=
    Activity.runOption (Publisher.step service.advertisement moment) routing service.publisher
  (routing.modify fun routing => ({ service with publisher := publisher }, routing), moved)

/-- When the mechanism may go on by itself. -/
def wakes (service : Service) : List Clock.Instant :=
  (service.publisher.bind Publisher.wake).toList

end Service

end PeerFinder.Rendezvous
