import PeerFinder.Clock
import PeerFinder.Error
import PeerFinder.Peer

/-!
# A scripted mechanism

A mechanism whose failures, delays and answers are given, and which remembers how it was used.
-/

namespace PeerFinder

/-- How a scripted mechanism answers one query. -/
structure ScriptedAnswer where
  peers : List Sighting := []
  delay : Clock.Span := 0
  fails : Bool := false
  ignoresLimit : Bool := false
deriving DecidableEq

/-- A query that a scripted mechanism received: when, for how many peers, and by what deadline. -/
structure ReceivedQuery where
  time : Clock.Instant
  limit : Nat
  deadline : Option Clock.Instant
deriving DecidableEq, Repr

/-- The state of a scripted mechanism. -/
structure Scripted where
  name : String
  failsStart : Bool := false
  failsStop : Bool := false
  /-- The answers by the number of the query; the last one serves all later queries. -/
  answers : List ScriptedAnswer := []
  starts : Nat := 0
  stops : Nat := 0
  /-- The queries so far, in order. -/
  queries : List ReceivedQuery := []
deriving DecidableEq

namespace Scripted

/-- Start the mechanism. -/
def start (scripted : Scripted) : Except Error Unit × Scripted :=
  (if scripted.failsStart then .error (.mechanismStart scripted.name "socket unavailable")
    else .ok (),
    { scripted with starts := scripted.starts + 1 })

/-- Stop the mechanism. -/
def stop (scripted : Scripted) : Except Error Unit × Scripted :=
  (if scripted.failsStop then .error (.connection "still dialing") else .ok (),
    { scripted with stops := scripted.stops + 1 })

/-- How the query of a number is answered. -/
def script (scripted : Scripted) (number : Nat) : ScriptedAnswer :=
  scripted.answers[number]?.getD (scripted.answers.getLast?.getD {})

/-- The answer to the query of a number. -/
def result (scripted : Scripted) (number limit : Nat) : Except Error (List Sighting) :=
  let script := scripted.script number
  if script.fails then .error (.connection s!"query {number} failed")
  else if script.ignoresLimit then .ok script.peers
  else .ok (script.peers.take limit)

/-- Receive a query: when it will be answered, and how. -/
def find (scripted : Scripted) (query : ReceivedQuery) :
    (Clock.Instant × Except Error (List Sighting)) × Scripted :=
  let number := scripted.queries.length
  ((Clock.after query.time (scripted.script number).delay, scripted.result number query.limit),
    { scripted with queries := scripted.queries ++ [query] })

end Scripted

end PeerFinder
