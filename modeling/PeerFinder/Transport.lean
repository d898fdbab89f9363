import PeerFinder.Clock
import PeerFinder.Error
import PeerFinder.Peer

/-!
# The transport

The transport dials peers, knows which are connected, and keeps an address book of every peer it
has dialed with success. Here reachability and the delay of dials are given, so that runs can be
followed exactly. A connect is a call in flight that ends when its delay is over.
-/

namespace PeerFinder

/-- The state of a transport. -/
structure Transport where
  localId : PeerId
  localAddresses : List Address := []
  reachable : PeerSet := ∅
  connected : PeerSet := ∅
  known : Std.ExtTreeMap PeerId AddressSet := ∅
  /-- Every connect so far with the instant it began, the latest first. -/
  attempts : List (Clock.Instant × PeerId) := []
  delay : Clock.Span := 0

/-- A connect in flight: its target, and when the transport answers. -/
structure Connect where
  peer : PeerInfo
  due : Clock.Instant
deriving DecidableEq

namespace Transport

/-- Add addresses of a peer to the address book. -/
def addKnown (transport : Transport) (peer : PeerInfo) : Transport :=
  let held := transport.known.getD peer.id ∅
  { transport with known := transport.known.insert peer.id (held ∪ peer.addresses) }

/-- The peers of the address book, ordered by identity. -/
def knownPeers (transport : Transport) : List PeerInfo :=
  transport.known.toList.map fun (id, addresses) => ⟨id, addresses⟩

/-- This node's identity with its own addresses. -/
def localInfo (transport : Transport) : PeerInfo :=
  PeerInfo.ofList transport.localId transport.localAddresses

/-- Whether a peer is connected. -/
def isConnected (transport : Transport) (id : PeerId) : Bool :=
  transport.connected.contains id

/-- Let connects to a peer succeed or fail from now on. -/
def setReachable (transport : Transport) (id : PeerId) (reachable : Bool) : Transport :=
  { transport with
    reachable :=
      if reachable then transport.reachable.insert id else transport.reachable.erase id }

/-- Drop the connection to a peer. -/
def disconnect (transport : Transport) (id : PeerId) : Transport :=
  { transport with connected := transport.connected.erase id }

/-- Begin a connect. -/
def beginConnect (transport : Transport) (now : Clock.Instant) (peer : PeerInfo) :
    Connect × Transport :=
  let due := if transport.delay = 0 then now else Clock.after now transport.delay
  (⟨peer, due⟩, { transport with attempts := (now, peer.id) :: transport.attempts })

/-- End a connect: a reachable peer becomes connected and known. -/
def finishConnect (transport : Transport) (peer : PeerInfo) : Except Error Unit × Transport :=
  if transport.reachable.contains peer.id then
    (.ok (), { transport.addKnown peer with connected := transport.connected.insert peer.id })
  else (.error (.connection (peer.id.text ++ " unreachable")), transport)

end Transport

/-- A connect in flight with a bound: when it is given up, and what the bound is called. -/
structure BoundedConnect where
  connect : Connect
  expires : Clock.Instant
  bound : String
deriving DecidableEq

namespace BoundedConnect

/-- Begin a connect that is given up after a span. -/
def start (transport : Transport) (now : Clock.Instant) (peer : PeerInfo) (timeout : Clock.Span)
    (bound : String) : BoundedConnect × Transport :=
  let (connect, transport) := transport.beginConnect now peer
  (⟨connect, Clock.after now timeout, bound⟩, transport)

/-- The outcome of a connect that has ended by now. An answer at the very bound still counts. -/
def outcome? (call : BoundedConnect) (now : Clock.Instant) (transport : Transport) :
    Option (Except Error Unit × Transport) :=
  if call.connect.due ≤ now then some (transport.finishConnect call.connect.peer)
  else if call.expires ≤ now then some (.error (.timeout call.bound), transport)
  else none

/-- When the connect ends. -/
def wake (call : BoundedConnect) : Clock.Instant :=
  min call.connect.due call.expires

end BoundedConnect

end PeerFinder
