import PeerFinder.Activity
import PeerFinder.Journal
import PeerFinder.PeerStore
import PeerFinder.Transport

/-!
# Dialing new peers

A new peer gets one bounded connect, whose outcome goes into the record of the peer. Once begun it
runs to its end: nothing stops it.
-/

namespace PeerFinder

/-- The connect to a new peer: the peer, the bound, and the connect once it is in flight. -/
structure AutoConnect where
  peer : PeerInfo
  timeout : Clock.Span := 10000
  call : Option BoundedConnect := none
deriving DecidableEq

namespace AutoConnect

/-- What the bound on the connect to a new peer is called. -/
def bound : String := "peer connect"

/-- The status and the error text of a peer after a connect. -/
def verdict : Except Error Unit → PeerStatus × Option String
  | .ok () => (.connected, none)
  | .error error => (.unreachable, some error.message)

/-- What is noted of a connect. -/
def notice (id : PeerId) : Except Error Unit → Notice
  | .ok () => .peerConnected id
  | .error error => .peerUnreachable id error

/-- A step of the connect to a new peer. -/
def step (now : Clock.Instant) : Activity.Step (Noted (Transport × PeerStore)) AutoConnect :=
  fun noted dial =>
    let (transport, store) := noted.state
    match dial.call with
    | none =>
        let (call, transport) :=
          BoundedConnect.start transport now dial.peer dial.timeout bound
        some (noted.modify fun _ => (transport, store), some { dial with call := some call })
    | some call =>
        (call.outcome? now transport).map fun (outcome, transport) =>
          let (status, error) := verdict outcome
          let (_, store) := store.updateStatus dial.peer.id status error now
          ((noted.modify fun _ => (transport, store)).note now (notice dial.peer.id outcome), none)

/-- When a connect in flight ends. -/
def wake (dial : AutoConnect) : Option Clock.Instant :=
  dial.call.map BoundedConnect.wake

end AutoConnect

end PeerFinder
