import PeerFinder.Rendezvous.Routing
import PeerFinder.Ticker

/-!
# Advertising a node

A publisher hands the record of its node in under a label, at once and then periodically.
-/

namespace PeerFinder.Rendezvous

/-- What a publisher advertises, and how often. -/
structure Advertisement where
  label : String
  info : PeerInfo
  interval : Clock.Span := 60000

/-- The points of a publisher. -/
inductive Publisher where
  /-- It has not begun. -/
  | ready
  /-- It waits for the next tick. -/
  | waiting (ticker : Ticker)
  /-- A record is on its way. -/
  | providing (ticker : Ticker) (call : Provide)

namespace Publisher

/-- What is noted of a record that was handed in. -/
def notice (label : String) : Except Error Unit → Notice
  | .ok () => .advertised label
  | .error error => .advertiseFailed label error

/-- The record of the advertised node at a moment. -/
def record (advertisement : Advertisement) (moment : Moment) : ProviderRecord :=
  ProviderRecord.ofPeer advertisement.info.id advertisement.info.addresses.toList
    moment.unixSeconds

variable {κ : Type} [DecidableEq κ]

/-- A step of a publisher. A publisher whose interval is zero never begins. -/
def step (advertisement : Advertisement) (moment : Moment) :
    Activity.Step (Noted (Routing κ)) Publisher :=
  fun routing publisher =>
    match publisher with
    | .ready =>
        if advertisement.interval = 0 then some (routing, none)
        else
          some (routing,
            some (.waiting (Ticker.immediate moment.now advertisement.interval .skip)))
    | .waiting ticker =>
        let tick? := ticker.fire? moment.now
        if moment.stops tick?.isSome then some (routing, none)
        else tick?.map fun ticker =>
          let (call, routing) :=
            Routing.provide moment advertisement.label (record advertisement moment) routing
          (routing, some (.providing ticker call))
    | .providing ticker call =>
        let answer? := Routing.answer? moment.now call routing.state
        if moment.stops answer?.isSome then some (routing, some (.waiting ticker))
        else answer?.map fun (result, state) =>
          ((routing.modify fun _ => state).note moment.now (notice advertisement.label result),
            some (.waiting ticker))

/-- When a publisher that waits may go on by itself. -/
def wake : Publisher → Option Clock.Instant
  | .ready => none
  | .waiting ticker => some ticker.due
  | .providing _ call => call.wake

end Publisher

end PeerFinder.Rendezvous
