import PeerFinder.Address.Parser
import PeerFinder.Error
import PeerFinder.Peer
import PeerFinder.Text.Blank

/-!
# Seeds

A seed is a peer known in advance with one address to dial it at, written `<node-id>@<ip:port>`.
White space around the text is ignored.
-/

namespace PeerFinder

/-- A peer to dial and the address to dial it at. -/
structure Seed where
  id : PeerId
  address : Address
deriving DecidableEq

namespace Seed

/-- The dial target. -/
def info (seed : Seed) : PeerInfo :=
  PeerInfo.ofList seed.id [seed.address]

/-- The written form of a seed. -/
def text (seed : Seed) : String :=
  seed.id.text ++ "@" ++ seed.address.text

/-- Why a text is no seed. -/
inductive Fault where
  /-- There is no at sign. -/
  | form
  /-- The part before the first at sign is no identity. -/
  | id (fault : PeerId.Fault)
  /-- The part after it is no address. -/
  | address
deriving DecidableEq, Repr

/-- The wording of a fault. -/
def Fault.message : Fault → String
  | .form => "expected <node-id>@<ip:port>"
  | .id fault => "bad node id: " ++ fault.message
  | .address => "bad address: invalid socket address syntax"

/-- The parts before and after the first occurrence of a character. -/
def splitAtFirst (separator : Char) (text : List Char) : Option (List Char × List Char) :=
  match text.span (· ≠ separator) with
  | (_, []) => none
  | (before, _ :: after) => some (before, after)

/-- Read a seed from its characters. -/
def read (text : List Char) : Except Fault Seed := do
  let some (id, address) := splitAtFirst '@' (Text.Blank.trim text) | throw .form
  let id ← (PeerId.parse id).mapError .id
  let some address := Address.parse? address | throw .address
  return ⟨id, address⟩

/-- Read a seed. The error quotes the whole text. -/
def parse (text : String) : Except Error Seed :=
  (read text.toList).mapError fun fault => .invalidSeed text fault.message

end Seed

end PeerFinder
