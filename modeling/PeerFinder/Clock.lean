/-!
# Time

Instants are milliseconds since the node began to run, spans are numbers of milliseconds. The clock
ends at a far horizon: an instant beyond it does not exist, and a wait that would end there is
taken to end in a far future instead.
-/

namespace PeerFinder.Clock

/-- Milliseconds since the beginning. -/
abbrev Instant := Nat

/-- A number of milliseconds. -/
abbrev Span := Nat

/-- The end of the clock: `2 ^ 63 - 1` seconds. -/
def horizon : Instant := (Nat.pow 2 63 - 1) * 1000

/-- Thirty years, the wait that stands for one beyond the horizon. -/
def farFuture : Span := 86400 * 365 * 30 * 1000

/-- The longest span: `2 ^ 64` seconds less a fraction. -/
def longest : Span := (Nat.pow 2 64 - 1) * 1000 + 999

/-- The instant a span after another, if the clock reaches it. -/
def after? (now : Instant) (span : Span) : Option Instant :=
  if now + span < horizon then some (now + span) else none

/-- The instant a span after another, or the far future if the clock does not reach it. -/
def after (now : Instant) (span : Span) : Instant :=
  (after? now span).getD (now + farFuture)

/-- Twice a span, up to the longest one. -/
def double (span : Span) : Span :=
  min (2 * span) longest

/-- The Unix time in whole seconds when the clock began at `wall` Unix seconds; zero before the
epoch. -/
def unixSeconds (wall : Int) (now : Instant) : Nat :=
  (wall + (now / 1000 : Nat)).toNat

/-- The earlier of two instants, where none never comes. -/
def earlier : Option Instant → Option Instant → Option Instant
  | some left, some right => some (min left right)
  | some left, none => some left
  | none, right => right

end PeerFinder.Clock
