import PeerFinder.Config.Basic
import PeerFinder.Text.Blank
import PeerFinder.Text.Numeral

/-!
# Overrides

Single settings replaced by texts looked up by key, as an environment provides them. A flag is set
by `true` in any case or by `1` and cleared by any other text; a number that does not read is
ignored; the seed list is cut at commas, and empty items are dropped.
-/

namespace PeerFinder.Config

/-- The flag that an override stands for. -/
def overrideFlag (text : String) : Bool :=
  let lowered := text.toList.map Char.toLower
  lowered = "true".toList || lowered = "1".toList

/-- The number of 64 bits that an override stands for; a plus sign may precede it. -/
def overrideWord? (text : String) : Option UInt64 := do
  let digits :=
    match text.toList with
    | '+' :: rest => rest
    | characters => characters
  let number ← Text.Numeral.toNat? 10 digits
  if number < UInt64.size then some (UInt64.ofNat number) else none

/-- The items of a seed list. -/
def overrideList (text : String) : List String :=
  ((text.toList.splitOn ',').map Text.Blank.trim).filter (· ≠ []) |>.map String.ofList

/-- The configuration with every setting replaced that the lookup has a usable text for. -/
def override (lookup : String → Option String) (config : Config) : Config :=
  { config with
    localNet.enabled := ((lookup "ENABLE_MDNS").map overrideFlag).getD config.localNet.enabled
    localNet.tag := (lookup "MDNS_SERVICE_TAG").getD config.localNet.tag
    seeds.enabled := ((lookup "ENABLE_SEEDS").map overrideFlag).getD config.seeds.enabled
    seeds.addresses := ((lookup "SEEDS").map overrideList).getD config.seeds.addresses
    rendezvous.enabled := ((lookup "ENABLE_DHT").map overrideFlag).getD config.rendezvous.enabled
    rendezvous.label := (lookup "DHT_RENDEZVOUS").getD config.rendezvous.label
    coordinator.autoConnect :=
      ((lookup "AUTO_CONNECT").map overrideFlag).getD config.coordinator.autoConnect
    store.maxPeers := ((lookup "MAX_PEERS").bind overrideWord?).getD config.store.maxPeers }

end PeerFinder.Config
