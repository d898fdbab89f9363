import PeerFinder.Coordinator.Intake

/-!
# Queries

A query asks one mechanism within a bound and passes the answer on to the intake, one peer at a
time. Before every peer it looks whether it was stopped.
-/

namespace PeerFinder.Coordinator

/-- The points of a query. -/
inductive Query.Point where
  /-- It has not begun. -/
  | ready
  /-- The mechanism is asked until an instant. -/
  | asking (expires : Clock.Instant)
  /-- These peers are still to be taken in, of so many found; so many were new. -/
  | ingesting (rest : List Sighting) (found new : Nat)
  /-- This peer is about to be taken in, and then the others. -/
  | accepting (sighting : Sighting) (rest : List Sighting) (found new : Nat)
deriving DecidableEq

/-- A query: the name of the mechanism, its bound, and where it stands. -/
structure Query where
  mechanism : String
  timeout : Clock.Span
  point : Query.Point := .ready
deriving DecidableEq

namespace Query

/-- The query at another point. -/
def goTo (query : Query) (point : Point) : Option Query :=
  some { query with point := point }

/-- A step of a query, given the answer of the mechanism if there is one by now. An answer at the
very bound still counts. -/
def step (moment : Moment) (answer? : Option (Except Error (List Sighting))) :
    Activity.Step (Noted Intake) Query :=
  fun intake query =>
    match query.point with
    | .ready =>
        if moment.stopping then some (intake, none)
        else some (intake, query.goTo (.asking (Clock.after moment.now query.timeout)))
    | .asking expires =>
        if moment.stopping then some (intake, none)
        else
          match answer? with
          | some (.ok peers) => some (intake, query.goTo (.ingesting peers peers.length 0))
          | some (.error error) =>
              some (intake.note moment.now (.queryFailed query.mechanism error), none)
          | none =>
              if expires ≤ moment.now then
                some (intake.note moment.now (.queryTimedOut query.mechanism), none)
              else none
    | .ingesting [] found new =>
        some
          (if 0 < found then intake.note moment.now (.queryComplete query.mechanism found new)
            else intake,
          none)
    | .ingesting (sighting :: rest) found new =>
        if moment.stopping then some (intake, none)
        else some (intake, query.goTo (.accepting sighting rest found new))
    | .accepting sighting rest found new =>
        let (outcome, accepted) := intake.state.accept moment.now sighting query.mechanism
        let new := if outcome = .inserted then new + 1 else new
        some (intake.modify fun _ => accepted, query.goTo (.ingesting rest found new))

/-- When the bound of a query comes. -/
def wake (query : Query) : Option Clock.Instant :=
  match query.point with
  | .asking expires => some expires
  | .ready | .ingesting .. | .accepting .. => none

end Query

end PeerFinder.Coordinator
