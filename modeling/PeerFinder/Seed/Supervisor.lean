import PeerFinder.Activity
import PeerFinder.Journal
import PeerFinder.Seed.Address
import PeerFinder.Seed.Policy
import PeerFinder.Ticker
import PeerFinder.Transport

/-!
# Watching the connection of a seed

A seed that connected gets one supervisor. It looks at the connection once in a while and redials
when the link is down, unless a dial of the seed is under way already. The flags of the seeds, which
dials and supervisors share, are on a `Board` together with the transport.
-/

namespace PeerFinder.Seed

/-- What is flagged of the seeds: which are connected, which are being dialed, and which have a
supervisor. -/
structure Flags where
  connected : PeerSet := ∅
  dialing : PeerSet := ∅
  supervised : PeerSet := ∅

/-- The points of a supervisor. -/
inductive Supervisor.Point where
  /-- It has not begun. -/
  | ready
  /-- It waits for the next tick. -/
  | waiting (ticker : Ticker)
  /-- It has asked the transport whether the seed is connected. -/
  | looked (ticker : Ticker) (connected : Bool)
  /-- It owns the dialing flag and has not dialed yet. -/
  | claimed (ticker : Ticker)
  /-- It owns the dialing flag and its connect is in flight. -/
  | redialing (ticker : Ticker) (call : BoundedConnect)
  /-- It owns the dialing flag and its connect has ended. -/
  | redialed (ticker : Ticker) (outcome : Except Error Unit)
  /-- It was stopped and still has its supervision flag. -/
  | ending

/-- A supervisor: the seed it watches and where it stands. -/
structure Supervisor where
  seed : Seed
  point : Supervisor.Point

/-- What dials and supervisors share: the transport, the flags, and the supervisors that were
called for and have yet to begin. -/
structure Board where
  transport : Transport
  flags : Flags
  recruits : List Supervisor

/-- The error of a connect that a stop cut short. -/
def shuttingDown : Error :=
  .connection "shutting down"

/-- What the bound on the connect to a seed is called. -/
def connectBound : String :=
  "seed connect"

/-- The outcome of a connect to a seed by now: a stop ends it at once. -/
def connectOutcome? (moment : Moment) (call : BoundedConnect) (transport : Transport) :
    Option (Except Error Unit × Transport) :=
  if moment.stopping then some (.error shuttingDown, transport)
  else call.outcome? moment.now transport

namespace Board

/-- Change the flags. -/
def mapFlags (board : Board) (change : Flags → Flags) : Board :=
  { board with flags := change board.flags }

/-- Begin a bounded connect to a seed. -/
def connect (board : Board) (now : Clock.Instant) (seed : Seed) (timeout : Clock.Span) :
    BoundedConnect × Board :=
  let (call, transport) :=
    BoundedConnect.start board.transport now seed.info timeout connectBound
  (call, { board with transport := transport })

end Board

namespace Flags

/-- Flag a seed as connected. -/
def connect (flags : Flags) (id : PeerId) : Flags :=
  { flags with connected := flags.connected.insert id }

/-- Take back that a seed is connected. -/
def lose (flags : Flags) (id : PeerId) : Flags :=
  { flags with connected := flags.connected.erase id }

/-- Claim a seed for dialing. -/
def claim (flags : Flags) (id : PeerId) : Flags :=
  { flags with dialing := flags.dialing.insert id }

/-- Release a seed from dialing. -/
def release (flags : Flags) (id : PeerId) : Flags :=
  { flags with dialing := flags.dialing.erase id }

/-- Put a seed under supervision. -/
def supervise (flags : Flags) (id : PeerId) : Flags :=
  { flags with supervised := flags.supervised.insert id }

/-- Take a seed from supervision. -/
def dismiss (flags : Flags) (id : PeerId) : Flags :=
  { flags with supervised := flags.supervised.erase id }

end Flags

namespace Supervisor

/-- A supervisor that is about to begin. -/
def ofSeed (seed : Seed) : Supervisor :=
  ⟨seed, .ready⟩

/-- The supervisor at another point. -/
def goTo (supervisor : Supervisor) (point : Point) : Option Supervisor :=
  some { supervisor with point := point }

/-- Act on a look at the connection. -/
def look (supervisor : Supervisor) (ticker : Ticker) (connected : Bool) (now : Clock.Instant)
    (board : Noted Board) : Noted Board × Option Supervisor :=
  let id := supervisor.seed.id
  if connected then
    (board.modify (·.mapFlags (·.connect id)), supervisor.goTo (.waiting ticker))
  else
    let noted :=
      if board.state.flags.connected.contains id then board.note now (.seedLost id) else board
    let lost := noted.modify (·.mapFlags (·.lose id))
    if board.state.flags.dialing.contains id then (lost, supervisor.goTo (.waiting ticker))
    else (lost.modify (·.mapFlags (·.claim id)), supervisor.goTo (.claimed ticker))

/-- Act on the outcome of a reconnect. -/
def settle (supervisor : Supervisor) (ticker : Ticker) (outcome : Except Error Unit)
    (now : Clock.Instant) (board : Noted Board) : Noted Board × Option Supervisor :=
  let id := supervisor.seed.id
  let released := board.modify (·.mapFlags (·.release id))
  let next := supervisor.goTo (.waiting ticker)
  match outcome with
  | .ok () =>
      ((released.modify (·.mapFlags (·.connect id))).note now (.seedReconnected id), next)
  | .error error => (released.note now (.seedStillLost id error), next)

/-- A step of a supervisor. A supervisor whose interval is zero never begins and keeps its flag. -/
def step (policy : Policy) (moment : Moment) : Activity.Step (Noted Board) Supervisor :=
  fun board supervisor =>
    let id := supervisor.seed.id
    match supervisor.point with
    | .ready =>
        if policy.superviseInterval = 0 then some (board, none)
        else
          let ticker := Ticker.deferred moment.now policy.superviseInterval .delay
          some (board, supervisor.goTo (.waiting ticker))
    | .waiting ticker =>
        let tick? := ticker.fire? moment.now
        if moment.stops tick?.isSome then some (board, supervisor.goTo .ending)
        else tick?.map fun ticker =>
          (board, supervisor.goTo (.looked ticker (board.state.transport.isConnected id)))
    | .looked ticker connected => some (supervisor.look ticker connected moment.now board)
    | .claimed ticker =>
        if moment.stopping then
          some (board, supervisor.goTo (.redialed ticker (.error shuttingDown)))
        else
          let (call, state) :=
            board.state.connect moment.now supervisor.seed policy.reconnectTimeout
          some (⟨state, board.journal⟩, supervisor.goTo (.redialing ticker call))
    | .redialing ticker call =>
        (connectOutcome? moment call board.state.transport).map fun (outcome, transport) =>
          (board.modify ({ · with transport := transport }),
            supervisor.goTo (.redialed ticker outcome))
    | .redialed ticker outcome => some (supervisor.settle ticker outcome moment.now board)
    | .ending => some (board.modify (·.mapFlags (·.dismiss id)), none)

/-- When a supervisor that waits may go on by itself. -/
def wake (supervisor : Supervisor) : Option Clock.Instant :=
  match supervisor.point with
  | .waiting ticker => some ticker.due
  | .redialing _ call => some call.wake
  | .ready | .looked .. | .claimed _ | .redialed .. | .ending => none

end Supervisor

end PeerFinder.Seed
