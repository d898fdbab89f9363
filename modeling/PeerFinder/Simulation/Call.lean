import PeerFinder.Simulation.Basic

/-!
# Calls that take time

How a call goes on, what it answers, and when it may go on by itself.
-/

namespace PeerFinder.Simulation.Call

/-- Whether a use of the item store read an address, and which. -/
def readAddress? : Rendezvous.Access Rendezvous.SlotAddress → Option Rendezvous.SlotAddress
  | .get address _ => some address
  | .put .. => none

/-- A step of an eviction loop. -/
def stepEviction (sim : Simulation) (token : Token) :
    Option Evictor → Option (Simulation × (Call ⊕ Answer))
  | none => some (sim, .inr .done)
  | some evictor =>
      (evictor.step (sim.env.moment token) sim.notedStore).map fun (store, evictor) =>
        (sim.setNotedStore store, .inl (.eviction token evictor))

/-- A step of a lookup that collects everything. -/
def stepLookup (sim : Simulation) (feed : Rendezvous.Feed) (found : List Rendezvous.Provider)
    (earlier : Nat) : Option (Simulation × (Call ⊕ Answer)) :=
  let moment : Moment := { now := sim.env.now, wall := sim.env.wall }
  let (poll, noted) := Rendezvous.Routing.poll moment feed ⟨sim.env.routing, sim.env.journal⟩
  let sim := { sim with env := { sim.env with routing := noted.state, journal := noted.journal } }
  match poll with
  | .item provider next => some (sim, .inl (.lookup next (found ++ [provider]) earlier))
  | .ended =>
      some (sim, .inr (.lookup found ((sim.accessesSince earlier).filterMap readAddress?)))
  | .pending next =>
      if feed.wake = next.wake then none else some (sim, .inl (.lookup next found earlier))

/-- A step of a start or stop of the coordinator. -/
def stepCoordinator {α : Type} (sim : Simulation) (wrap : α → Call)
    (step : Activity.CallStep (Environment × Coordinator) α (Except Error Unit)) (call : α) :
    Option (Simulation × (Call ⊕ Answer)) :=
  match sim.coordinator with
  | none => some (sim, .inr .misplaced)
  | some coordinator =>
      (step (sim.env, coordinator) call).map fun ((env, coordinator), next) =>
        ({ sim with env := env, coordinator := some coordinator }, next.map wrap .result)

/-- A step of a call. -/
def step : Activity.CallStep Simulation Call Answer := fun sim call =>
  match call with
  | .sleep due => if due ≤ sim.env.now then some (sim, .inr .done) else none
  | .connect attempt =>
      if attempt.due ≤ sim.env.now then
        let (result, transport) := sim.env.transport.finishConnect attempt.peer
        some (sim.mapTransport fun _ => transport, .inr (.result result))
      else none
  | .done wait =>
      (wait.step sim.env.now sim.env.tree).map fun (_, next) =>
        (sim, next.map .done fun _ => .done)
  | .cancelled token => if sim.env.tree.isCancelled token then some (sim, .inr .done) else none
  | .eviction token evictor => stepEviction sim token evictor
  | .provide record earlier =>
      (Rendezvous.Routing.answer? sim.env.now record sim.env.routing).map
        fun (result, routing) =>
          let accesses := sim.accessesSince earlier
          ({ sim with env := { sim.env with routing := routing }, accesses := accesses },
            .inr (.accessed result accesses))
  | .lookup feed found earlier => stepLookup sim feed found earlier
  | .find search sorted =>
      (search.step sim.env).map fun (env, next) =>
        ({ sim with env := env },
          next.map (fun search => .find search sorted) fun result => .peers result sorted)
  | .startup point => stepCoordinator sim .startup Coordinator.Startup.step point
  | .shutdown point => stepCoordinator sim .shutdown Coordinator.Shutdown.step point

/-- When a call that waits may go on by itself. -/
def wake (call : Call) (sim : Simulation) : Option Clock.Instant :=
  match call with
  | .sleep due => some due
  | .connect attempt => some attempt.due
  | .done wait => wait.wake
  | .eviction _ evictor => evictor.bind Evictor.wake
  | .provide record _ => record.wake
  | .lookup feed .. => feed.wake
  | .find search _ => search.wake sim.env
  | .cancelled _ | .startup _ | .shutdown _ => none

end PeerFinder.Simulation.Call
