import PeerFinder.Clock

/-!
# Periodic timers

A ticker falls due, is fired when its activity gets to it, and then falls due again. Fired more than
the tolerance late, it has missed a tick and goes on as its `Late` rule says; otherwise the next
tick is one period after this one was due.
-/

namespace PeerFinder

/-- What a ticker does after a missed tick. -/
inductive Late where
  /-- The next tick is a period from now. -/
  | delay
  /-- The next tick is the first one of the old rhythm that is still to come. -/
  | skip
deriving DecidableEq, Repr

/-- A periodic timer: when it is due, its period, and its rule for missed ticks. -/
structure Ticker where
  due : Clock.Instant
  period : Clock.Span
  late : Late
deriving DecidableEq, Repr

namespace Ticker

/-- How late a tick may be fired without being missed. -/
def tolerance : Clock.Span := 5

/-- A ticker whose first tick is due at once. -/
def immediate (now : Clock.Instant) (period : Clock.Span) (late : Late) : Ticker :=
  ⟨now, period, late⟩

/-- A ticker whose first tick is due after a period. -/
def deferred (now : Clock.Instant) (period : Clock.Span) (late : Late) : Ticker :=
  ⟨Clock.after now period, period, late⟩

/-- When the tick after the present one is due if that is fired now. -/
def next (ticker : Ticker) (now : Clock.Instant) : Clock.Instant :=
  if ticker.due + tolerance < now then
    match ticker.late with
    | .delay => now + ticker.period
    | .skip => now + ticker.period - (now - ticker.due) % ticker.period
  else (Clock.after? ticker.due ticker.period).getD (now + Clock.farFuture)

/-- Fire a tick that is due. -/
def fire? (ticker : Ticker) (now : Clock.Instant) : Option Ticker :=
  if ticker.due ≤ now then some { ticker with due := ticker.next now } else none

end Ticker

end PeerFinder
