import PeerFinder.Scope
import PeerFinder.Seed.Dial

/-!
# The mechanism of the seeds

A fixed list of seeds is dialed when the mechanism starts and again with every query. A query
answers the peers in the address book of the transport.
-/

namespace PeerFinder.Seed

/-- The state of the mechanism. -/
structure Service where
  seeds : List Seed
  policy : Policy := {}
  flags : Flags := {}
  dials : List Dial := []
  supervisors : List Supervisor := []
  shutdown : Token

namespace Service

/-- A list with a seed added, unless it holds one of the same identity. -/
def addTo (seeds : List Seed) (seed : Seed) : List Seed :=
  if seeds.any (·.id == seed.id) then seeds else seeds ++ [seed]

/-- A mechanism with the seeds of a list; of several with one identity the first counts. -/
def ofSeeds (seeds : List Seed) (shutdown : Token) : Service where
  seeds := seeds.foldl addTo []
  shutdown := shutdown

/-- The seeds among texts, and the errors of the texts that are none. -/
def readAll (texts : List String) : List Seed × List Error :=
  let outcomes := texts.map Seed.parse
  (outcomes.filterMap Except.toOption,
    outcomes.filterMap fun
      | .ok _ => none
      | .error error => some error)

/-- Add a seed, to be dialed with the next sweep; false if its identity is listed already. -/
def addSeed (service : Service) (seed : Seed) : Bool × Service :=
  if service.seeds.any (·.id == seed.id) then (false, service)
  else (true, { service with seeds := service.seeds ++ [seed] })

/-- Dial one seed unless it is connected or being dialed. -/
def sweepSeed (service : Service) (seed : Seed) : Service :=
  if service.flags.connected.contains seed.id || service.flags.dialing.contains seed.id then
    service
  else
    { service with
      flags := service.flags.claim seed.id
      dials := service.dials ++ [Dial.ofSeed service.policy seed] }

/-- Dial every seed that is neither connected nor being dialed, unless the mechanism is stopped. -/
def sweep (service : Service) (stopping : Bool) : Service :=
  if stopping then service else service.seeds.foldl sweepSeed service

/-- The peers of the address book that a query answers: all with an address but this node. -/
def candidates (transport : Transport) (limit : Nat) : List Sighting :=
  (transport.knownPeers.filter fun info =>
    info.id != transport.localId && !info.addresses.isEmpty).take limit |>.map Sighting.ofInfo

/-- A query under a scope that may be done already. -/
def find (service : Service) (stopping done : Bool) (transport : Transport) (limit : Nat) :
    List Sighting × Service :=
  (if done then [] else candidates transport limit, service.sweep stopping)

/-- Take the dials and then the supervisors on, and tell whether any moved. -/
def advance (service : Service) (moment : Moment) (transport : Noted Transport) :
    Noted (Service × Transport) × Bool :=
  let board := transport.modify fun transport => ⟨transport, service.flags, []⟩
  let (board, dials, dialed) :=
    Activity.runAll (Dial.step service.policy moment) board service.dials
  let (board, supervisors, watched) :=
    Activity.runAll (Supervisor.step service.policy moment) board
      (service.supervisors ++ board.state.recruits)
  (board.modify fun board =>
      ({ service with flags := board.flags, dials := dials, supervisors := supervisors },
        board.transport),
    dialed || watched)

/-- When the mechanism may go on by itself. -/
def wakes (service : Service) : List Clock.Instant :=
  service.dials.filterMap Dial.wake ++ service.supervisors.filterMap Supervisor.wake

end Service

end PeerFinder.Seed
