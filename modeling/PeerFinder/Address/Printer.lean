import PeerFinder.Address.Basic
import PeerFinder.Text.Numeral

/-!
# The written form of addresses

A version 4 address is four decimal numbers with dots. A version 6 address is eight hexadecimal
groups with colons, the first longest run of at least two zero groups shrunk to a double colon; an
embedded version 4 address is written as such. The port follows a colon, after brackets in version
6, where a scope other than zero follows a percent sign inside the brackets.
-/

namespace PeerFinder

/-- The pieces with a separator between neighbours. -/
def Text.joined (separator : List Char) (pieces : List (List Char)) : List Char :=
  separator.intercalate pieces

/-- Four decimal numbers with dots between them. -/
def Ipv4.render (ip : Ipv4) : List Char :=
  Text.joined ['.'] (ip.octets.map fun octet => Text.Numeral.ofNat 10 octet.toNat)

namespace Ipv6

/-- Hexadecimal groups with colons between them. -/
def renderGroups (groups : List UInt16) : List Char :=
  Text.joined [':'] (groups.map fun group => Text.Numeral.ofNat 16 group.toNat)

/-- The length of the run of zeros at the head. -/
def leadingZeros (groups : List UInt16) : Nat :=
  (groups.takeWhile (· == 0)).length

/-- The position and length of the first longest run of zeros, positions counted from `start`. -/
def longestZeros (start : Nat) : List UInt16 → Nat × Nat
  | [] => (start, 0)
  | group :: rest =>
      let here := leadingZeros (group :: rest)
      let (position, length) := longestZeros (start + 1) rest
      if length ≤ here then (start, here) else (position, length)

/-- The version 4 address embedded in groups of the form `0:0:0:0:0:ffff:_:_`. -/
def embedded? (ip : Ipv6) : Option Ipv4 :=
  match ip.groups with
  | [0, 0, 0, 0, 0, 0xffff, high, low] =>
      some ⟨(high >>> 8).toUInt8, high.toUInt8, (low >>> 8).toUInt8, low.toUInt8⟩
  | _ => none

/-- The written form of a version 6 address. -/
def render (ip : Ipv6) : List Char :=
  match ip.embedded? with
  | some inner => [':', ':', 'f', 'f', 'f', 'f', ':'] ++ inner.render
  | none =>
      let (position, length) := longestZeros 0 ip.groups
      if 1 < length then
        renderGroups (ip.groups.take position) ++ [':', ':'] ++
          renderGroups (ip.groups.drop (position + length))
      else renderGroups ip.groups

end Ipv6

namespace Address

/-- The written form of an address. -/
def render : Address → List Char
  | .v4 ip port => ip.render ++ ':' :: Text.Numeral.ofNat 10 port.toNat
  | .v6 ip port _ scope =>
      let suffix := if scope = 0 then [] else '%' :: Text.Numeral.ofNat 10 scope.toNat
      '[' :: ip.render ++ suffix ++ ']' :: ':' :: Text.Numeral.ofNat 10 port.toNat

/-- The written form of an address as text. -/
def text (address : Address) : String :=
  String.ofList address.render

end Address

end PeerFinder
