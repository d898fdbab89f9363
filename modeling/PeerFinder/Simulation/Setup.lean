import PeerFinder.Config.Load
import PeerFinder.Coordinator.Assembly
import PeerFinder.Simulation.Run

/-!
# Setting a simulation up

A `Setup` says what there is in a simulation: the transport, the local network, the routing table,
mechanisms of every kind, and a coordinator, whose mechanisms are listed or come from the text of a
configuration.
-/

namespace PeerFinder.Simulation

/-- The mechanism of the local network. -/
structure LocalNetSetup where
  tag : String := "iroh-peer-discovery"
  services : List String := []
  queryTimeout : Clock.Span := 5000

/-- The mechanism of the seeds. If `quiet`, texts that are no seeds are left out without a
notice. -/
structure SeedSetup where
  seeds : List String
  quiet : Bool := false
  policy : Seed.Policy := {}

/-- The mechanism of the routing table. -/
structure RendezvousSetup where
  label : String := "realm"
  interval : Clock.Span := 60000
  queryTimeout : Clock.Span := 10000

/-- The coordinator. -/
inductive CoordinatorSetup where
  /-- Mechanisms by kind: the local network, the seeds, the routing table, and by any other word the
  next scripted one. -/
  | listed (kinds : List String) (schedule : Coordinator.Schedule)
      (autoConnect : Option Clock.Span)
  /-- The mechanisms of a configuration. -/
  | configured (text : String)

/-- Everything in a simulation. -/
structure Setup where
  transport : Transport
  wall : Int := 1700000000
  limits : StoreLimits := {}
  swarm : Option LocalNet.Swarm := none
  routing : Option (Rendezvous.Routing Rendezvous.SlotAddress) := none
  localNet : Option LocalNetSetup := none
  seeds : Option SeedSetup := none
  rendezvous : Option RendezvousSetup := none
  scripted : List Scripted := []
  coordinator : Option CoordinatorSetup := none

namespace Setup

/-- The surroundings before any mechanism is added. -/
def bare (setup : Setup) : Simulation where
  env :=
    { wall := setup.wall
      transport := setup.transport
      swarm := setup.swarm
      routing := setup.routing.getD (.scripted {}) }
  intake := { localId := setup.transport.localId, store := { limits := setup.limits } }
  hasRouting := setup.routing.isSome

/-- Add a mechanism under a name. -/
def addNamed (sim : Simulation) (name : String) (added : Nat × Environment) : Simulation :=
  { sim with env := added.2, places := sim.places ++ [(name, added.1)] }

/-- Add the mechanism of the local network if there is to be one. -/
def withLocalNet (setup : Setup) (sim : Simulation) : Simulation :=
  setup.localNet.elim sim fun localNet =>
    addNamed sim "mdns" <|
      sim.env.addLocalNet localNet.tag localNet.services localNet.queryTimeout
        setup.swarm.isSome

/-- Add the mechanism of the seeds if there is to be one. -/
def withSeeds (setup : Setup) (sim : Simulation) : Simulation :=
  setup.seeds.elim sim fun seeds =>
    addNamed sim "static" <|
      if seeds.quiet then
        sim.env.addSeeds (Seed.Service.readAll seeds.seeds).1 seeds.policy
      else sim.env.addSeedTexts seeds.seeds seeds.policy

/-- Add the mechanism of the routing table if there is to be one. -/
def withRendezvous (setup : Setup) (sim : Simulation) : Simulation :=
  setup.rendezvous.elim sim fun rendezvous =>
    addNamed sim "dht" <|
      sim.env.addRendezvous rendezvous.label rendezvous.interval rendezvous.queryTimeout

/-- Add the scripted mechanisms. -/
def withScripted (setup : Setup) (sim : Simulation) : Simulation :=
  setup.scripted.foldl
    (fun sim mechanism =>
      addNamed sim mechanism.name (sim.env.addMechanism (.scripted mechanism)))
    sim

/-- The places of mechanisms by kind; the given places are those of the scripted ones. -/
def placesOf (sim : Simulation) : List String → (scripted : List Nat) → List Nat
  | [], _ => []
  | kind :: rest, scripted =>
      if kind = "mdns" || kind = "static" || kind = "dht" then
        (sim.places.lookup kind).toList ++ placesOf sim rest scripted
      else
        scripted.head?.toList ++ placesOf sim rest scripted.tail

/-- The places of the scripted mechanisms. -/
def scriptedPlaces (sim : Simulation) : List Nat :=
  (List.range sim.env.mechanisms.length).filter fun place =>
    match sim.env.mechanisms[place]? with
    | some (.scripted _) => true
    | _ => false

/-- Add the coordinator if there is to be one. -/
def withCoordinator (setup : Setup) (sim : Simulation) : Except Config.LoadFault Simulation :=
  match setup.coordinator with
  | none => .ok sim
  | some (.listed kinds schedule autoConnect) =>
      let members := (placesOf sim kinds (scriptedPlaces sim)).map (Coordinator.memberAt sim.env)
      let (coordinator, env) := Coordinator.create sim.env schedule members
      let observers := autoConnect.toList.map Coordinator.Observer.autoConnect
      .ok { sim with
        env := env
        coordinator := some coordinator
        intake := { sim.intake with observers := observers } }
  | some (.configured text) => do
      let config ← Config.ofText text
      let (intake, coordinator, env) := Coordinator.ofConfig config sim.env setup.routing.isSome
      .ok { sim with env := env, coordinator := some coordinator, intake := intake }

/-- The simulation of a setup, with everything done that can be done before the first step. -/
def build (setup : Setup) : Except Config.LoadFault Simulation := do
  let sim := setup.bare |> setup.withLocalNet |> setup.withSeeds |> setup.withRendezvous
    |> setup.withScripted
  let sim ← setup.withCoordinator sim
  .ok sim.settle

/-- What the steps of a run are answered. -/
def run (setup : Setup) (steps : List Step) :
    Except Config.LoadFault (List (Clock.Instant × Answer)) := do
  let sim ← setup.build
  .ok (sim.performAll steps)

end Setup

end PeerFinder.Simulation
