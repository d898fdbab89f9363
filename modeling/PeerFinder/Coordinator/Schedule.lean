import PeerFinder.Clock

/-!
# Timings of the coordinator
-/

namespace PeerFinder.Coordinator

/-- How often mechanisms are queried and the population is summarised. -/
structure Schedule where
  /-- Time between two sweeps; the first one comes at once. -/
  sweepInterval : Clock.Span := 30000
  /-- Peers asked of each mechanism in a sweep. -/
  queryLimit : Nat := 10
  /-- Bound on the query of one mechanism. -/
  queryTimeout : Clock.Span := 10000
  /-- Time between two summaries. -/
  statsInterval : Clock.Span := 60000
deriving DecidableEq, Repr

end PeerFinder.Coordinator
