import PeerFinder.Config.Basic
import PeerFinder.Error

/-!
# Valid configurations

A configuration is valid if some mechanism is enabled, the timers that always run have periods, no
duration is longer than a year, the limits accept a peer, and the settings of each enabled mechanism
are usable. `Config.validate` answers the first rule that is broken.
-/

namespace PeerFinder.Config

/-- Which rule a configuration breaks. -/
inductive Fault where
  /-- No mechanism is enabled. -/
  | noMechanism
  /-- This setting must not be zero. -/
  | zero (setting : String)
  /-- This duration is longer than a year. -/
  | tooLong (setting : String)
  /-- The tag of the local network is empty or has a comma. -/
  | tag
  /-- A service is empty or has a comma. -/
  | services
  /-- Seeds are enabled with no tries or no supervision interval. -/
  | seedTimings
  /-- The label of the lookups is empty. -/
  | label
deriving DecidableEq, Repr

/-- The longest duration of any setting, in seconds: a year. -/
def longestDuration : Nat := 365 * 24 * 60 * 60

/-- The wording of a fault. -/
def Fault.message : Fault → String
  | .noMechanism => "at least one discovery mechanism must be enabled"
  | .zero setting => setting ++ " must be greater than zero"
  | .tooLong setting => s!"{setting} must be at most {longestDuration}"
  | .tag => "mdns.service_tag must be non-empty and free of commas"
  | .services => "mdns.services must be non-empty and free of commas"
  | .seedTimings => "seeds.attempts and seeds.supervise_interval_secs must be non-zero"
  | .label => "dht.rendezvous must not be empty"

/-- The error that a fault is to a caller. -/
def Fault.toError (fault : Fault) : Error :=
  .config fault.message

/-- The periods of the timers that always run, by name. -/
def periods (config : Config) : List (String × UInt64) :=
  [("coordinator.sweep_interval_secs", config.coordinator.sweepInterval),
   ("coordinator.query_timeout_secs", config.coordinator.queryTimeout),
   ("coordinator.stats_interval_secs", config.coordinator.statsInterval),
   ("store.eviction_interval_secs", config.store.evictionInterval)]

/-- All durations, by name. -/
def durations (config : Config) : List (String × UInt64) :=
  [("mdns.query_timeout_secs", config.localNet.queryTimeout),
   ("seeds.connect_timeout_secs", config.seeds.connectTimeout),
   ("seeds.initial_backoff_secs", config.seeds.initialBackoff),
   ("seeds.supervise_interval_secs", config.seeds.superviseInterval),
   ("seeds.reconnect_timeout_secs", config.seeds.reconnectTimeout),
   ("dht.advertise_interval_secs", config.rendezvous.advertiseInterval),
   ("dht.query_timeout_secs", config.rendezvous.queryTimeout),
   ("coordinator.sweep_interval_secs", config.coordinator.sweepInterval),
   ("coordinator.query_timeout_secs", config.coordinator.queryTimeout),
   ("coordinator.stats_interval_secs", config.coordinator.statsInterval),
   ("coordinator.connect_timeout_secs", config.coordinator.connectTimeout),
   ("store.retention_secs", config.store.retention),
   ("store.eviction_interval_secs", config.store.evictionInterval)]

/-- Whether a name can stand between commas. -/
def isName (name : String) : Bool :=
  !name.isEmpty && !name.toList.contains ','

/-- Refuse with a fault unless a condition holds. -/
def require (condition : Bool) (fault : Fault) : Except Fault Unit :=
  if condition then .ok () else .error fault

/-- Accept a configuration, or answer the first rule that it breaks. -/
def validate (config : Config) : Except Fault Unit := do
  require (config.localNet.enabled || config.seeds.enabled || config.rendezvous.enabled)
    .noMechanism
  config.periods.forM fun (name, seconds) => require (seconds != 0) (.zero name)
  config.durations.forM fun (name, seconds) =>
    require (seconds.toNat ≤ longestDuration) (.tooLong name)
  require (config.coordinator.queryLimit != 0) (.zero "coordinator.query_limit")
  require (config.store.maxPeers != 0) (.zero "store.max_peers")
  if config.localNet.enabled then
    require (isName config.localNet.tag) .tag
    require (config.localNet.services.all isName) .services
  if config.seeds.enabled then
    require (config.seeds.attempts != 0 && config.seeds.superviseInterval != 0) .seedTimings
  if config.rendezvous.enabled then
    require (config.rendezvous.advertiseInterval != 0) (.zero "dht.advertise_interval_secs")
    require (!config.rendezvous.label.isEmpty) .label

end PeerFinder.Config
