import PeerFinder.Clock

/-!
# Timings of seed connections
-/

namespace PeerFinder.Seed

/-- How a seed is dialed and how its connection is watched. -/
structure Policy where
  /-- Tries of one dial. -/
  attempts : Nat := 3
  /-- Bound on a single try. -/
  connectTimeout : Clock.Span := 15000
  /-- Wait before the second try; it doubles after each failure. -/
  initialBackoff : Clock.Span := 1000
  /-- Time between two looks at a connection. -/
  superviseInterval : Clock.Span := 30000
  /-- Bound on a reconnect. -/
  reconnectTimeout : Clock.Span := 10000
deriving DecidableEq, Repr

end PeerFinder.Seed
