import PeerFinder.Coordinator.Basic
import PeerFinder.Simulation.Command

/-!
# Simulated nodes

A simulation holds one node with everything around it, and calls that run in the background. Time
stands still while anything can go on: `Simulation.settle` takes all work on until everything waits.
Only then the clock moves, to the next instant at which something may go on by itself.
-/

namespace PeerFinder

/-- The addresses in the distributed table. -/
abbrev Simulation.Accesses := List (Rendezvous.Access Rendezvous.SlotAddress)

/-- A call to a simulation that takes time. -/
inductive Simulation.Call where
  | sleep (due : Clock.Instant)
  | connect (attempt : Connect)
  | done (wait : Scope.Wait)
  | cancelled (token : Token)
  | eviction (token : Token) (evictor : Option Evictor)
  | provide (record : Rendezvous.Provide) (earlier : Nat)
  | lookup (feed : Rendezvous.Feed) (found : List Rendezvous.Provider) (earlier : Nat)
  | find (search : Search) (sorted : Bool)
  | startup (point : Coordinator.Startup)
  | shutdown (point : Coordinator.Shutdown)

/-- A call in the background: its name, and the command or what became of it. -/
structure Simulation.Background where
  name : String
  job : Simulation.Command ⊕ Simulation.Call

/-- A node, its surroundings, and what runs in the background. -/
structure Simulation where
  env : Environment
  intake : Coordinator.Intake
  coordinator : Option Coordinator := none
  /-- Whether there is a routing table. -/
  hasRouting : Bool := false
  /-- The places of mechanisms by name. -/
  places : List (String × Nat) := []
  scopes : List (String × Scope) := []
  background : List Simulation.Background := []
  /-- The answers of calls that have ended and were not asked for yet. -/
  ended : List (String × Clock.Instant × Simulation.Answer) := []
  /-- How the item store was used by the last record handed in. -/
  accesses : Simulation.Accesses := []

namespace Simulation

/-- Change the transport. -/
def mapTransport (sim : Simulation) (change : Transport → Transport) : Simulation :=
  { sim with env := { sim.env with transport := change sim.env.transport } }

/-- Change the store. -/
def setStore (sim : Simulation) (store : PeerStore) : Simulation :=
  { sim with intake := { sim.intake with store := store } }

/-- The store together with the journal. -/
def notedStore (sim : Simulation) : Noted PeerStore :=
  ⟨sim.intake.store, sim.env.journal⟩

/-- Take back the store together with the journal. -/
def setNotedStore (sim : Simulation) (store : Noted PeerStore) : Simulation :=
  { sim.setStore store.state with env := { sim.env with journal := store.journal } }

/-- The uses of the item store so far, the latest first. -/
def allAccesses (sim : Simulation) : Accesses :=
  match sim.env.routing with
  | .slotted table => table.store.accesses
  | .scripted _ => []

/-- The uses of the item store after so many earlier ones, in order. -/
def accessesSince (sim : Simulation) (earlier : Nat) : Accesses :=
  (sim.allAccesses.reverse).drop earlier

/-- Take the work of the coordinator on, and tell whether any moved. -/
def advanceCoordinator (sim : Simulation) : Simulation × Bool :=
  match sim.coordinator with
  | none => (sim, false)
  | some coordinator =>
      let (coordinator, env, intake, looped) := coordinator.advanceLoops sim.env sim.intake
      let (coordinator, env, intake, queried) := coordinator.advanceErrands env intake
      ({ sim with coordinator := some coordinator, env := env, intake := intake },
        looped || queried)

/-- Take the connects to new peers on, and tell whether any moved. -/
def advanceDials (sim : Simulation) : Simulation × Bool :=
  let noted := ⟨(sim.env.transport, sim.intake.store), sim.env.journal⟩
  let (noted, dials, moved) :=
    Activity.runAll (AutoConnect.step sim.env.now) noted sim.intake.dials
  let (transport, store) := noted.state
  ({ sim with
      env := { sim.env with transport := transport, journal := noted.journal }
      intake := { sim.intake with store := store, dials := dials } }, moved)

end Simulation

end PeerFinder
