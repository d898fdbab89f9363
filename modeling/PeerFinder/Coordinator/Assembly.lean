import PeerFinder.Config.Parts
import PeerFinder.Coordinator.Basic
import PeerFinder.Mechanism.Assembly

/-!
# A coordinator from a configuration

`Coordinator.ofConfig` adds the mechanisms that a configuration enables, in a fixed order: the local
network, the seeds if any are listed, and the routing table if there is one. The store of the new
intake has the configured limits.
-/

namespace PeerFinder.Coordinator

/-- The member for the mechanism at a place. -/
def memberAt (env : Environment) (place : Nat) : Member :=
  ⟨place, ((env.mechanisms[place]?).map Mechanism.name).getD ""⟩

/-- A coordinator under a scope of its own. -/
def create (env : Environment) (schedule : Schedule) (members : List Member) :
    Coordinator × Environment :=
  let (scope, env) := env.root
  ({ schedule := schedule, members := members, scope := scope }, env)

/-- Add a member if it is wanted. -/
def addIf (wanted : Bool) (add : Environment → Nat × Environment)
    (members : List Member × Environment) : List Member × Environment :=
  if wanted then
    let (place, env) := add members.2
    (members.1 ++ [memberAt env place], env)
  else members

/-- The mechanisms that a configuration enables. -/
def membersOf (config : Config) (env : Environment) (hasRouting : Bool) :
    List Member × Environment :=
  let localNet := addIf config.localNet.enabled
    (·.addLocalNet config.localNet.tag config.localNet.services
      (Clock.ofSeconds config.localNet.queryTimeout) false) ([], env)
  let seeds := addIf (config.seeds.enabled && !config.seeds.addresses.isEmpty)
    (·.addSeedTexts config.seeds.addresses config.seeds.policy) localNet
  let rendezvous := addIf (config.rendezvous.enabled && hasRouting)
    (·.addRendezvous config.rendezvous.label
      (Clock.ofSeconds config.rendezvous.advertiseInterval)
      (Clock.ofSeconds config.rendezvous.queryTimeout)) seeds
  if config.rendezvous.enabled && !hasRouting then
    (rendezvous.1, rendezvous.2.note .noRoutingTable)
  else rendezvous

/-- The observers that a configuration asks for. -/
def observersOf (config : Config) : List Observer :=
  if config.coordinator.autoConnect then
    [.autoConnect (Clock.ofSeconds config.coordinator.connectTimeout)]
  else []

/-- The intake and the coordinator of a configuration. -/
def ofConfig (config : Config) (env : Environment) (hasRouting : Bool) :
    Intake × Coordinator × Environment :=
  let (members, env) := membersOf config env hasRouting
  let (coordinator, env) := create env config.coordinator.schedule members
  ({ localId := env.transport.localId
     store := { limits := config.store.limits }
     observers := observersOf config }, coordinator, env)

end PeerFinder.Coordinator
