import PeerFinder.Curve.Edwards
import PeerFinder.Text.Base32
import PeerFinder.Text.Hex
import Std.Data.ExtTreeMap
import Std.Data.ExtTreeSet

/-!
# Peer identities

A peer is known by its public key: 32 bytes that stand for a point of the curve. An identity is
written as 64 hexadecimal digits and read from these or from base 32. Identities are ordered by
their bytes.
-/

namespace PeerFinder

/-- The identity of a peer: the bytes of its public key. -/
structure PeerId where
  bytes : List UInt8
  length_eq : bytes.length = 32
  decompresses : Curve.Edwards.decompresses bytes = true
deriving DecidableEq

namespace PeerId

/-- Identities are ordered by their bytes. -/
instance : Ord PeerId := ⟨compareOn PeerId.bytes⟩

instance : Std.TransOrd PeerId :=
  inferInstanceAs (Std.TransCmp (compareOn PeerId.bytes))

instance : Std.LawfulEqOrd PeerId where
  compare_self := Std.ReflCmp.compare_self
  eq_of_compare h := by
    have bytes_eq := Std.LawfulEqOrd.eq_of_compare (α := List UInt8) h
    cases ‹PeerId›; cases ‹PeerId›; simp_all

/-- The identity with these bytes, if they are 32 and stand for a point. -/
def ofBytes? (bytes : List UInt8) : Option PeerId :=
  if length_eq : bytes.length = 32 then
    if decompresses : Curve.Edwards.decompresses bytes = true then
      some ⟨bytes, length_eq, decompresses⟩
    else none
  else none

/-- The written form of an identity. -/
def text (id : PeerId) : String :=
  Text.Hex.text id.bytes

/-- What the curve says of bytes that stand for no point. -/
def notOnCurve : String :=
  "signature error: Cannot decompress Edwards point"

/-- Why a text is no identity. -/
inductive Fault where
  /-- The text is not of a usable length for its encoding. -/
  | unusable (usable : Nat)
  /-- The text does not hold 32 bytes. -/
  | length
  /-- The symbol at this position is not one of the encoding. -/
  | symbol (position : Nat)
  /-- The last symbol holds bits beyond the last byte. -/
  | trailing (position : Nat)
  /-- The bytes stand for no point. -/
  | key
deriving DecidableEq, Repr

/-- The wording of a fault. -/
def Fault.message : Fault → String
  | .unusable usable => s!"decoding: invalid length at {usable}"
  | .length => "invalid length"
  | .symbol position => s!"decoding: invalid symbol at {position}"
  | .trailing position => s!"decoding: non-zero trailing bits at {position}"
  | .key => "key: " ++ notOnCurve

/-- The fault of an identity that a fault of its base 32 text causes. -/
def Fault.ofBase32 : Text.Base32.Fault → Fault
  | .length usable => .unusable usable
  | .symbol position => .symbol position
  | .trailing position => .trailing position

/-- The symbols of a text, one for each of its bytes: a character of several bytes counts as
often. -/
def symbols (text : List Char) : List Char :=
  text.flatMap fun character => List.replicate character.utf8Size character

/-- Read the bytes of base 32 symbols in either case. A wrong length is reported before a foreign
symbol. -/
def decodeBase32 (symbols : List Char) : Except Fault (List UInt8) := do
  let count ← (Text.Base32.byteCount symbols.length).mapError Fault.ofBase32
  if count ≠ 32 then throw .length
  (Text.Base32.decode (symbols.map Char.toUpper)).mapError Fault.ofBase32

/-- Read the bytes of an identity: 64 symbols are hexadecimal, all other text is base 32. -/
def decode (text : List Char) : Except Fault (List UInt8) :=
  let symbols := symbols text
  if symbols.length = 64 then (Text.Hex.decode symbols).mapError Fault.symbol
  else decodeBase32 symbols

/-- Read an identity. -/
def parse (text : List Char) : Except Fault PeerId := do
  let bytes ← decode text
  match ofBytes? bytes with
  | some id => pure id
  | none => throw .key

end PeerId

/-- A finite set of peers. -/
abbrev PeerSet := Std.ExtTreeSet PeerId compare

end PeerFinder
