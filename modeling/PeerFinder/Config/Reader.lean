import PeerFinder.Config.Basic
import PeerFinder.Toml.Parser

/-!
# Settings from a document

Every section of a document may be missing, and so may every key of a section: what is missing
keeps its default. Keys that no setting has are ignored. An array in the place of a section gives
its fields in order. A point in time in the place of a section is a table of foreign keys.
-/

namespace PeerFinder.Config.Reader

open Toml

/-- The flag that a value stands for. -/
def flag? : Value → Option Bool
  | .boolean value => some value
  | _ => none

/-- The text that a value stands for. -/
def text? : Value → Option String
  | .text characters => some (String.ofList characters)
  | _ => none

/-- The texts that a value stands for. -/
def texts? : Value → Option (List String)
  | .array elements => elements.mapM text?
  | _ => none

/-- The number of 64 bits that a value stands for. -/
def word? : Value → Option UInt64
  | .integer number =>
      if 0 ≤ number ∧ number < UInt64.size then some (UInt64.ofNat number.toNat) else none
  | _ => none

/-- The number of 32 bits that a value stands for. -/
def halfWord? : Value → Option UInt32
  | .integer number =>
      if 0 ≤ number ∧ number < UInt32.size then some (UInt32.ofNat number.toNat) else none
  | _ => none

/-- The values of a section by key, where `names` are its keys in order. -/
def fields? (names : List String) : Value → Option (String → Option Value)
  | .table _ entries => some fun name => Entries.get? entries name.toList
  | .inlineTable entries => some fun name => Entries.get? entries name.toList
  | .array elements => some fun name => (names.zip elements).lookup name
  | .tables latest earlier =>
      let elements := (latest :: earlier).reverse.map (Value.table .header)
      some fun name => (names.zip elements).lookup name
  | .moment _ => some fun _ => none
  | _ => none

/-- A setting: its value in the document, or its default where the document has none. -/
def setting {α : Type} (fields : String → Option Value) (name : String)
    (read? : Value → Option α) (default : α) : Option α :=
  match fields name with
  | none => some default
  | some value => read? value

/-- The keys of the section on the local network, in order. -/
def localNetKeys : List String :=
  ["enabled", "service_tag", "query_timeout_secs", "services"]

/-- Read the settings of the announcements on the local network. -/
def localNet? (value : Value) : Option LocalNetSettings := do
  let fields ← fields? localNetKeys value
  let default : LocalNetSettings := {}
  let enabled ← setting fields "enabled" flag? default.enabled
  let tag ← setting fields "service_tag" text? default.tag
  let queryTimeout ← setting fields "query_timeout_secs" word? default.queryTimeout
  let services ← setting fields "services" texts? default.services
  some { enabled, tag, queryTimeout, services }

/-- The keys of the section on seeds, in order. -/
def seedKeys : List String :=
  ["enabled", "addrs", "attempts", "connect_timeout_secs", "initial_backoff_secs",
   "supervise_interval_secs", "reconnect_timeout_secs"]

/-- Read the settings of the seeds. -/
def seeds? (value : Value) : Option SeedSettings := do
  let fields ← fields? seedKeys value
  let default : SeedSettings := {}
  let enabled ← setting fields "enabled" flag? default.enabled
  let addresses ← setting fields "addrs" texts? default.addresses
  let attempts ← setting fields "attempts" halfWord? default.attempts
  let connectTimeout ← setting fields "connect_timeout_secs" word? default.connectTimeout
  let initialBackoff ← setting fields "initial_backoff_secs" word? default.initialBackoff
  let superviseInterval ← setting fields "supervise_interval_secs" word? default.superviseInterval
  let reconnectTimeout ← setting fields "reconnect_timeout_secs" word? default.reconnectTimeout
  some { enabled, addresses, attempts, connectTimeout, initialBackoff, superviseInterval,
         reconnectTimeout }

/-- The keys of the section on lookups, in order. -/
def rendezvousKeys : List String :=
  ["enabled", "rendezvous", "advertise_interval_secs", "query_timeout_secs"]

/-- Read the settings of the lookups in a distributed table. -/
def rendezvous? (value : Value) : Option RendezvousSettings := do
  let fields ← fields? rendezvousKeys value
  let default : RendezvousSettings := {}
  let enabled ← setting fields "enabled" flag? default.enabled
  let label ← setting fields "rendezvous" text? default.label
  let advertiseInterval ← setting fields "advertise_interval_secs" word? default.advertiseInterval
  let queryTimeout ← setting fields "query_timeout_secs" word? default.queryTimeout
  some { enabled, label, advertiseInterval, queryTimeout }

/-- The keys of the section on the coordinator, in order. -/
def coordinatorKeys : List String :=
  ["sweep_interval_secs", "query_limit", "query_timeout_secs", "stats_interval_secs",
   "auto_connect", "connect_timeout_secs"]

/-- Read the settings of the coordinator. -/
def coordinator? (value : Value) : Option CoordinatorSettings := do
  let fields ← fields? coordinatorKeys value
  let default : CoordinatorSettings := {}
  let sweepInterval ← setting fields "sweep_interval_secs" word? default.sweepInterval
  let queryLimit ← setting fields "query_limit" word? default.queryLimit
  let queryTimeout ← setting fields "query_timeout_secs" word? default.queryTimeout
  let statsInterval ← setting fields "stats_interval_secs" word? default.statsInterval
  let autoConnect ← setting fields "auto_connect" flag? default.autoConnect
  let connectTimeout ← setting fields "connect_timeout_secs" word? default.connectTimeout
  some { sweepInterval, queryLimit, queryTimeout, statsInterval, autoConnect, connectTimeout }

/-- The keys of the section on the store, in order. -/
def storeKeys : List String :=
  ["max_peers", "retention_secs", "eviction_interval_secs"]

/-- Read the settings of the peer store. -/
def store? (value : Value) : Option StoreSettings := do
  let fields ← fields? storeKeys value
  let default : StoreSettings := {}
  let maxPeers ← setting fields "max_peers" word? default.maxPeers
  let retention ← setting fields "retention_secs" word? default.retention
  let evictionInterval ← setting fields "eviction_interval_secs" word? default.evictionInterval
  some { maxPeers, retention, evictionInterval }

end PeerFinder.Config.Reader

namespace PeerFinder.Config

open Reader in
/-- The settings in the entries of a document. -/
def ofEntries? (entries : Toml.Entries) : Option Config := do
  let fields := fun (name : String) => entries.get? name.toList
  let localNet ← setting fields "mdns" localNet? {}
  let seeds ← setting fields "seeds" seeds? {}
  let rendezvous ← setting fields "dht" rendezvous? {}
  let coordinator ← setting fields "coordinator" coordinator? {}
  let store ← setting fields "store" store? {}
  some { localNet, seeds, rendezvous, coordinator, store }

/-- The settings in the text of a document. -/
def parse? (text : String) : Option Config := do
  ofEntries? (← Toml.parse? text.toList)

end PeerFinder.Config
