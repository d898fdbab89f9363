import PeerFinder.Config.Basic
import PeerFinder.Coordinator.Schedule
import PeerFinder.PeerStore
import PeerFinder.Seed.Policy

/-!
# What each part is told of the configuration

The seeds get their policy, the coordinator its schedule and the store its limits, with durations
in milliseconds.
-/

namespace PeerFinder

/-- Whole seconds as a span of time. -/
def Clock.ofSeconds (seconds : UInt64) : Clock.Span :=
  seconds.toNat * 1000

/-- The dial and supervision timings. -/
def SeedSettings.policy (settings : SeedSettings) : Seed.Policy where
  attempts := settings.attempts.toNat
  connectTimeout := Clock.ofSeconds settings.connectTimeout
  initialBackoff := Clock.ofSeconds settings.initialBackoff
  superviseInterval := Clock.ofSeconds settings.superviseInterval
  reconnectTimeout := Clock.ofSeconds settings.reconnectTimeout

/-- The timings of the coordinator's loops. -/
def CoordinatorSettings.schedule (settings : CoordinatorSettings) : Coordinator.Schedule where
  sweepInterval := Clock.ofSeconds settings.sweepInterval
  queryLimit := settings.queryLimit.toNat
  queryTimeout := Clock.ofSeconds settings.queryTimeout
  statsInterval := Clock.ofSeconds settings.statsInterval

/-- The limits of the peer store. -/
def StoreSettings.limits (settings : StoreSettings) : StoreLimits where
  maxPeers := settings.maxPeers.toNat
  retention := Clock.ofSeconds settings.retention
  evictionInterval := Clock.ofSeconds settings.evictionInterval

end PeerFinder
