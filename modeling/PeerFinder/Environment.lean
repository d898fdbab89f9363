import PeerFinder.LocalNet.Service
import PeerFinder.Mechanism.Scripted
import PeerFinder.Rendezvous.Service
import PeerFinder.Seed.Service

/-!
# The environment of a coordinator

Mechanisms find peers; they share the clock, the scopes, the transport, the local network, the
routing table and the journal. An `Environment` holds all of these. A mechanism is started, stopped
and queried by its place in the environment, and `Environment.advance` takes its background work on.
-/

namespace PeerFinder

/-- A mechanism that finds peers. -/
inductive Mechanism where
  | localNet (service : LocalNet.Service)
  | seeds (service : Seed.Service)
  | rendezvous (service : Rendezvous.Service)
  | scripted (mechanism : Scripted)

/-- The name of a mechanism. -/
def Mechanism.name : Mechanism → String
  | .localNet _ => LocalNet.Service.name
  | .seeds _ => "static"
  | .rendezvous _ => Rendezvous.Service.name
  | .scripted mechanism => mechanism.name

/-- A token that is cancelled when another one is. -/
structure Link where
  parent : Token
  child : Token
deriving DecidableEq, Repr

/-- A step of a link: it ends when either token is cancelled. -/
def Link.step : Activity.Step ScopeTree Link := fun tree link =>
  if tree.isCancelled link.parent then some (tree.cancel link.child, none)
  else if tree.isCancelled link.child then some (tree, none)
  else none

/-- What mechanisms share, and the mechanisms. -/
structure Environment where
  now : Clock.Instant := 0
  /-- The Unix time in seconds at which the clock began. -/
  wall : Int := 0
  tree : ScopeTree := {}
  transport : Transport
  swarm : Option LocalNet.Swarm := none
  routing : Rendezvous.Routing Rendezvous.SlotAddress := .scripted {}
  mechanisms : List Mechanism := []
  links : List Link := []
  journal : Journal := []

/-- A query in flight, at the mechanism of a place in the environment. -/
inductive Search where
  /-- The answer is there. -/
  | answered (result : Except Error (List Sighting))
  /-- The answer comes at an instant. -/
  | scripted (due : Clock.Instant) (result : Except Error (List Sighting))
  /-- The queue of the local network is drained. -/
  | drain (place : Nat) (call : LocalNet.Drain)
  /-- The routing table is searched. -/
  | lookup (call : Rendezvous.Lookup)

namespace Environment

/-- What the work under a token sees. -/
def moment (env : Environment) (token : Token) : Moment :=
  { now := env.now, wall := env.wall, stopping := env.tree.isCancelled token }

/-- Enter a notice. -/
def note (env : Environment) (notice : Notice) : Environment :=
  { env with journal := (env.now, notice) :: env.journal }

/-- Put a mechanism in a place. -/
def setMechanism (env : Environment) (place : Nat) (mechanism : Mechanism) : Environment :=
  { env with mechanisms := env.mechanisms.set place mechanism }

/-- Add a mechanism, and tell its place. -/
def addMechanism (env : Environment) (mechanism : Mechanism) : Nat × Environment :=
  (env.mechanisms.length, { env with mechanisms := env.mechanisms ++ [mechanism] })

/-- Give out a root token. -/
def root (env : Environment) : Token × Environment :=
  let (token, tree) := env.tree.root
  (token, { env with tree := tree })

/-- Cancel a token. -/
def cancel (env : Environment) (token : Token) : Environment :=
  { env with tree := env.tree.cancel token }

/-- Cancel a token as soon as another one is cancelled. -/
def link (env : Environment) (parent child : Token) : Environment :=
  { env with links := env.links ++ [⟨parent, child⟩] }

/-- The error of a call to a place without a mechanism. -/
def vacant (place : Nat) : Error :=
  .connection s!"no mechanism at {place}"

/-- Start the mechanism of a place under a token. -/
def start (env : Environment) (place : Nat) (token : Token) : Except Error Unit × Environment :=
  match env.mechanisms[place]? with
  | none => (.error (vacant place), env)
  | some (.localNet service) =>
      match service.start env.swarm with
      | .error error => (.error error, env)
      | .ok (service, swarm) =>
          let env := { env with swarm := swarm }.setMechanism place (.localNet service)
          (.ok (), env.link token service.shutdown)
  | some (.seeds service) =>
      let swept := service.sweep (env.tree.isCancelled service.shutdown)
      (.ok (), (env.setMechanism place (.seeds swept)).link token service.shutdown)
  | some (.rendezvous service) =>
      let (result, started, routing) :=
        Rendezvous.Service.start ⟨service, env.journal⟩ env.now env.routing
      let env := { env with routing := routing, journal := started.journal }
      (result,
        (env.setMechanism place (.rendezvous started.state)).link token service.shutdown)
  | some (.scripted mechanism) =>
      let (result, mechanism) := mechanism.start
      (result, env.setMechanism place (.scripted mechanism))

/-- Stop the mechanism of a place. -/
def stop (env : Environment) (place : Nat) : Except Error Unit × Environment :=
  match env.mechanisms[place]? with
  | none => (.error (vacant place), env)
  | some (.localNet service) =>
      (.ok (), (env.cancel service.shutdown).setMechanism place (.localNet service.stop))
  | some (.seeds service) => (.ok (), env.cancel service.shutdown)
  | some (.rendezvous service) =>
      let env := env.cancel service.shutdown
      let (result, service, routing) := service.stop env.routing
      (result, { env with routing := routing }.setMechanism place (.rendezvous service))
  | some (.scripted mechanism) =>
      let (result, mechanism) := mechanism.stop
      (result, env.setMechanism place (.scripted mechanism))

/-- Begin a query at the mechanism of a place. -/
def find (env : Environment) (place : Nat) (scope : Scope) (limit : Nat) :
    Search × Environment :=
  match env.mechanisms[place]? with
  | none => (.answered (.error (vacant place)), env)
  | some (.localNet service) =>
      let (drain, service, tree) := service.find env.tree env.now scope limit
      (.drain place drain, { env with tree := tree }.setMechanism place (.localNet service))
  | some (.seeds service) =>
      let (peers, service) :=
        service.find (env.tree.isCancelled service.shutdown) (scope.isDone env.tree env.now)
          env.transport limit
      (.answered (.ok peers), env.setMechanism place (.seeds service))
  | some (.rendezvous service) =>
      let (lookup, tree) := service.find env.routing env.tree env.now scope limit
      (.lookup lookup, { env with tree := tree })
  | some (.scripted mechanism) =>
      let ((due, result), mechanism) := mechanism.find ⟨env.now, limit, scope.deadline⟩
      (.scripted due result, env.setMechanism place (.scripted mechanism))

/-- Take the background work of the mechanism of a place on, and tell whether it moved. -/
def advanceMechanism (env : Environment) (place : Nat) : Environment × Bool :=
  match env.mechanisms[place]? with
  | some (.localNet service) =>
      let (noted, moved) := service.advance (env.moment service.shutdown) env.journal
      ({ env with journal := noted.journal }.setMechanism place (.localNet noted.state), moved)
  | some (.seeds service) =>
      let (noted, moved) :=
        service.advance (env.moment service.shutdown) ⟨env.transport, env.journal⟩
      let (service, transport) := noted.state
      ({ env with transport := transport, journal := noted.journal }.setMechanism place
        (.seeds service), moved)
  | some (.rendezvous service) =>
      let (noted, moved) :=
        service.advance (env.moment service.shutdown) ⟨env.routing, env.journal⟩
      let (service, routing) := noted.state
      ({ env with routing := routing, journal := noted.journal }.setMechanism place
        (.rendezvous service), moved)
  | some (.scripted _) | none => (env, false)

/-- Take the background work of all places from a number of them on, in order. -/
def advancePlaces (env : Environment) : List Nat → Environment × Bool
  | [] => (env, false)
  | place :: rest =>
      let (env, moved) := env.advanceMechanism place
      let (env, others) := env.advancePlaces rest
      (env, moved || others)

/-- Take the links and the background work of every mechanism on, and tell whether any moved. -/
def advance (env : Environment) : Environment × Bool :=
  let (tree, links, linked) := Activity.runAll Link.step env.tree env.links
  let (env, moved) :=
    { env with tree := tree, links := links }.advancePlaces (List.range env.mechanisms.length)
  (env, linked || moved)

/-- When the mechanisms may go on by themselves. -/
def wakes (env : Environment) : List Clock.Instant :=
  env.mechanisms.flatMap fun
    | .seeds service => service.wakes
    | .rendezvous service => service.wakes
    | .localNet _ | .scripted _ => []

/-- The mechanism of the local network, if it is at a place. -/
def localNet? (env : Environment) (place : Nat) : Option LocalNet.Service :=
  match env.mechanisms[place]? with
  | some (.localNet service) => some service
  | _ => none

end Environment

namespace Search

/-- A step of a query. -/
def step : Activity.CallStep Environment Search (Except Error (List Sighting)) :=
  fun env search =>
    match search with
    | .answered result => some (env, .inr result)
    | .scripted due result => if due ≤ env.now then some (env, .inr result) else none
    | .drain place call =>
        match env.localNet? place with
        | none => some (env, .inr (.ok call.found))
        | some service =>
            (LocalNet.Drain.step env.tree env.now service.queue call).map fun (queue, next) =>
              (env.setMechanism place (.localNet { service with queue := queue }),
                match next with
                | .inl call => .inl (.drain place call)
                | .inr found => .inr (.ok found))
    | .lookup call =>
        let routing := ⟨env.routing, env.journal⟩
        (Rendezvous.Lookup.step env.tree (env.moment call.scope.token) routing call).map
          fun (noted, next) =>
            ({ env with routing := noted.state, journal := noted.journal },
              match next with
              | .inl call => .inl (.lookup call)
              | .inr found => .inr (.ok found))

/-- Give a query up. -/
def abandon (search : Search) (env : Environment) : Environment :=
  match search with
  | .answered _ | .scripted .. | .lookup _ => env
  | .drain place call =>
      match env.localNet? place with
      | none => env
      | some service =>
          env.setMechanism place
            (.localNet { service with queue := service.queue.leave call.ticket })

/-- When a query may go on by itself. -/
def wake (search : Search) (env : Environment) : Option Clock.Instant :=
  match search with
  | .answered _ => none
  | .scripted due _ => some due
  | .drain place call => (env.localNet? place).bind fun service => call.wake service.queue
  | .lookup call => call.wake

end Search

end PeerFinder
