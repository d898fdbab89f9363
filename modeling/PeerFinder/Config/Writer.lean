import PeerFinder.Config.Basic
import PeerFinder.Toml.Printer

/-!
# Settings as a document

Every setting of every section is written, in order. Numbers beyond the range of the document's
integers cannot be written.
-/

namespace PeerFinder.Config

open Toml

/-- A key with a text. -/
def textField (name value : String) : Key × Field :=
  (name.toList, .text value.toList)

/-- A key with a list of texts. -/
def textsField (name : String) (values : List String) : Key × Field :=
  (name.toList, .texts (values.map String.toList))

/-- A key with a number. -/
def wordField (name : String) (value : UInt64) : Key × Field :=
  (name.toList, .integer value.toNat)

/-- A key with a flag. -/
def flagField (name : String) (value : Bool) : Key × Field :=
  (name.toList, .boolean value)

/-- The sections of a configuration. -/
def sections (config : Config) : List Toml.Section :=
  [⟨"mdns".toList,
    [flagField "enabled" config.localNet.enabled,
     textField "service_tag" config.localNet.tag,
     wordField "query_timeout_secs" config.localNet.queryTimeout,
     textsField "services" config.localNet.services]⟩,
   ⟨"seeds".toList,
    [flagField "enabled" config.seeds.enabled,
     textsField "addrs" config.seeds.addresses,
     wordField "attempts" config.seeds.attempts.toUInt64,
     wordField "connect_timeout_secs" config.seeds.connectTimeout,
     wordField "initial_backoff_secs" config.seeds.initialBackoff,
     wordField "supervise_interval_secs" config.seeds.superviseInterval,
     wordField "reconnect_timeout_secs" config.seeds.reconnectTimeout]⟩,
   ⟨"dht".toList,
    [flagField "enabled" config.rendezvous.enabled,
     textField "rendezvous" config.rendezvous.label,
     wordField "advertise_interval_secs" config.rendezvous.advertiseInterval,
     wordField "query_timeout_secs" config.rendezvous.queryTimeout]⟩,
   ⟨"coordinator".toList,
    [wordField "sweep_interval_secs" config.coordinator.sweepInterval,
     wordField "query_limit" config.coordinator.queryLimit,
     wordField "query_timeout_secs" config.coordinator.queryTimeout,
     wordField "stats_interval_secs" config.coordinator.statsInterval,
     flagField "auto_connect" config.coordinator.autoConnect,
     wordField "connect_timeout_secs" config.coordinator.connectTimeout]⟩,
   ⟨"store".toList,
    [wordField "max_peers" config.store.maxPeers,
     wordField "retention_secs" config.store.retention,
     wordField "eviction_interval_secs" config.store.evictionInterval]⟩]

/-- The text of a configuration, if every number can be written. -/
def render? (config : Config) : Option String :=
  (Toml.render? config.sections).map String.ofList

end PeerFinder.Config
