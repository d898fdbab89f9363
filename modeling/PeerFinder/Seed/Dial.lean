import PeerFinder.Seed.Supervisor

/-!
# Dialing a seed

A dial makes a few tries with waits between them that double. While it lasts the seed is flagged as
being dialed, so that no second dial begins. A dial that connects calls for a supervisor of the seed
unless there is one.
-/

namespace PeerFinder.Seed

/-- The points of a dial. Tries are counted from one. -/
inductive Dial.Point where
  /-- The next try is due; the backoff comes after it. -/
  | ready (attempt : Nat) (backoff : Clock.Span)
  /-- A connect is in flight. -/
  | trying (attempt : Nat) (backoff : Clock.Span) (call : BoundedConnect)
  /-- A try has failed and the next one comes when the rest is over. -/
  | resting (attempt : Nat) (backoff : Clock.Span) (resume : Clock.Instant)
  /-- No try will follow, and the flags are still to be settled. -/
  | ending (connected : Bool)
deriving DecidableEq

/-- A dial: the seed and where the dial stands. -/
structure Dial where
  seed : Seed
  point : Dial.Point
deriving DecidableEq

namespace Dial

/-- A dial about to make its first try. -/
def ofSeed (policy : Policy) (seed : Seed) : Dial :=
  ⟨seed, .ready 1 policy.initialBackoff⟩

/-- The dial at another point. -/
def goTo (dial : Dial) (point : Point) : Option Dial :=
  some { dial with point := point }

/-- Where a dial goes on after a try that has ended. -/
def afterTry (policy : Policy) (moment : Moment) (attempt : Nat) (backoff : Clock.Span)
    (outcome : Except Error Unit) : Point :=
  match outcome with
  | .ok () => .ending true
  | .error _ =>
      if moment.stopping then .ending false
      else if attempt < policy.attempts then
        .resting attempt backoff (Clock.after moment.now backoff)
      else .ending false

/-- What is noted of a try that has ended. -/
def notice (policy : Policy) (seed : Seed) (attempt : Nat) : Except Error Unit → Notice
  | .ok () => .seedConnected seed.id attempt
  | .error error => .seedRefused seed.id attempt policy.attempts error

/-- Act on a try that has ended. -/
def conclude (dial : Dial) (policy : Policy) (moment : Moment) (attempt : Nat)
    (backoff : Clock.Span) (outcome : Except Error Unit) (board : Noted Board) :
    Noted Board × Option Dial :=
  (board.note moment.now (notice policy dial.seed attempt outcome),
    dial.goTo (afterTry policy moment attempt backoff outcome))

/-- Settle the flags of a seed whose dial is over, and call for a supervisor if need be. -/
def settle (seed : Seed) (connected : Bool) (board : Board) : Board :=
  let released := board.mapFlags (·.release seed.id)
  if connected then
    let flagged := released.mapFlags (·.connect seed.id)
    if flagged.flags.supervised.contains seed.id then flagged
    else
      { flagged.mapFlags (·.supervise seed.id) with
        recruits := flagged.recruits ++ [Supervisor.ofSeed seed] }
  else released

/-- A step of a dial. -/
def step (policy : Policy) (moment : Moment) : Activity.Step (Noted Board) Dial :=
  fun board dial =>
    match dial.point with
    | .ready attempt backoff =>
        if policy.attempts < attempt then some (board, dial.goTo (.ending false))
        else if moment.stopping then
          some (dial.conclude policy moment attempt backoff (.error shuttingDown) board)
        else
          let (call, state) := board.state.connect moment.now dial.seed policy.connectTimeout
          some (⟨state, board.journal⟩, dial.goTo (.trying attempt backoff call))
    | .trying attempt backoff call =>
        (connectOutcome? moment call board.state.transport).map fun (outcome, transport) =>
          dial.conclude policy moment attempt backoff outcome
            (board.modify ({ · with transport := transport }))
    | .resting attempt backoff resume =>
        let rested := decide (resume ≤ moment.now)
        if moment.stops rested then some (board, dial.goTo (.ending false))
        else if rested then some (board, dial.goTo (.ready (attempt + 1) (Clock.double backoff)))
        else none
    | .ending connected => some (board.modify (settle dial.seed connected), none)

/-- When a dial that waits may go on by itself. -/
def wake (dial : Dial) : Option Clock.Instant :=
  match dial.point with
  | .trying _ _ call => some call.wake
  | .resting _ _ resume => some resume
  | .ready .. | .ending _ => none

end Dial

end PeerFinder.Seed
