import PeerFinder.Activity
import PeerFinder.Journal
import PeerFinder.PeerStore
import PeerFinder.Ticker

/-!
# Eviction passes

An evictor removes the stale records of low trust from a store periodically, the first time after
one interval.
-/

namespace PeerFinder

/-- The points of an evictor. -/
inductive Evictor where
  /-- It has not begun. -/
  | ready
  /-- It waits for the next tick. -/
  | waiting (ticker : Ticker)
deriving DecidableEq, Repr

namespace Evictor

/-- One pass over a store. -/
def pass (now : Clock.Instant) (store : Noted PeerStore) : Nat × Noted PeerStore :=
  let (removed, kept) := store.state.evict now
  (removed, (store.modify fun _ => kept).note now (.eviction removed kept.size))

/-- A step of an evictor. An evictor whose interval is zero never begins. -/
def step (moment : Moment) : Activity.Step (Noted PeerStore) Evictor :=
  fun store evictor =>
    match evictor with
    | .ready =>
        let interval := store.state.limits.evictionInterval
        if interval = 0 then some (store, none)
        else some (store, some (.waiting (Ticker.deferred moment.now interval .delay)))
    | .waiting ticker =>
        let tick? := ticker.fire? moment.now
        if moment.stops tick?.isSome then some (store.note moment.now .evictionStopped, none)
        else tick?.map fun ticker => ((pass moment.now store).2, some (.waiting ticker))

/-- When an evictor that waits may go on by itself. -/
def wake : Evictor → Option Clock.Instant
  | .ready => none
  | .waiting ticker => some ticker.due

end Evictor

end PeerFinder
