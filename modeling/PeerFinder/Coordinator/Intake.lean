import PeerFinder.AutoConnect

/-!
# Taking in peers

Every sighting goes through one intake. This node itself is rejected; any other peer goes into the
store, and if it is new there it is announced: to the observers in order, and to every open
subscription.
-/

namespace PeerFinder.Coordinator

/-- A peer seen for the first time, and the name of the mechanism that found it. -/
structure Event where
  sighting : Sighting
  source : String
deriving DecidableEq

/-- Who is told of new peers. -/
inductive Observer where
  /-- Every new peer is dialed once. -/
  | autoConnect (timeout : Clock.Span)
  /-- Every new peer is written down under a name. -/
  | recorder (name : String)
deriving DecidableEq, Repr

/-- What an observer has written down. -/
structure Observation where
  observer : String
  time : Clock.Instant
  event : Event
deriving DecidableEq

/-- A stream of new peers: those not yet taken, in order, and whether it has ended. -/
structure Subscription where
  name : String
  events : List Event := []
  ended : Bool := false
deriving DecidableEq

namespace Subscription

/-- The most events that a subscription holds; the oldest make room for new ones. -/
def capacity : Nat := 256

/-- Hand an event over to a subscription. -/
def deliver (subscription : Subscription) (event : Event) : Subscription :=
  let events := subscription.events ++ [event]
  { subscription with events := events.drop (events.length - capacity) }

end Subscription

/-- The store with all who are told of new peers, and what came of telling them. -/
structure Intake where
  localId : PeerId
  store : PeerStore := {}
  observers : List Observer := []
  subscriptions : List Subscription := []
  /-- What recorders have written down, in order. -/
  observations : List Observation := []
  /-- Connects to new peers that have not ended. -/
  dials : List AutoConnect := []

namespace Intake

/-- Tell one observer of a new peer. -/
def tell (now : Clock.Instant) (event : Event) (intake : Intake) : Observer → Intake
  | .autoConnect timeout =>
      { intake with
        dials := intake.dials ++ [{ peer := event.sighting.info, timeout := timeout }] }
  | .recorder name =>
      { intake with observations := intake.observations ++ [⟨name, now, event⟩] }

/-- Announce a new peer. -/
def announce (intake : Intake) (now : Clock.Instant) (event : Event) : Intake :=
  let told := intake.observers.foldl (tell now event) intake
  { told with subscriptions := told.subscriptions.map (·.deliver event) }

/-- Take in a sighting from a source. -/
def accept (intake : Intake) (now : Clock.Instant) (sighting : Sighting) (source : String) :
    Upsert × Intake :=
  if sighting.id = intake.localId then (.rejected, intake)
  else
    let (outcome, store) := intake.store.addOrUpdate sighting source now
    let stored := { intake with store := store }
    (outcome, if outcome = .inserted then stored.announce now ⟨sighting, source⟩ else stored)

/-- Take in sightings from a source in order. -/
def acceptAll (intake : Intake) (now : Clock.Instant) (source : String) :
    List Sighting → List Upsert × Intake
  | [] => ([], intake)
  | sighting :: rest =>
      let (outcome, intake) := intake.accept now sighting source
      let (outcomes, intake) := intake.acceptAll now source rest
      (outcome :: outcomes, intake)

/-- End every subscription. -/
def endSubscriptions (intake : Intake) : Intake :=
  { intake with
    subscriptions := intake.subscriptions.map fun subscription =>
      { subscription with ended := true } }

end Intake

end PeerFinder.Coordinator
