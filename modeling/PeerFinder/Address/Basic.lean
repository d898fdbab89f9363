import Std.Data.ExtTreeSet

/-!
# Network addresses

An address is an internet address of either version with a port. Addresses are ordered: version 4
before version 6, then by internet address, port, flow information, and scope. `AddressSet` is a
finite set of them, which lists its members in that order.
-/

namespace PeerFinder

/-- An internet address of version 4 by its four bytes. -/
structure Ipv4 where
  a : UInt8
  b : UInt8
  c : UInt8
  d : UInt8
deriving DecidableEq

/-- The bytes of a version 4 address. -/
def Ipv4.octets (ip : Ipv4) : List UInt8 :=
  [ip.a, ip.b, ip.c, ip.d]

/-- An internet address of version 6 by its eight groups. -/
structure Ipv6 where
  groups : List UInt16
  length_eq : groups.length = 8
deriving DecidableEq

/-- The two bytes of a group, the more significant first. -/
def Ipv6.groupOctets (group : UInt16) : List UInt8 :=
  [(group >>> 8).toUInt8, group.toUInt8]

/-- The group of two bytes. -/
def Ipv6.groupOfOctets (high low : UInt8) : UInt16 :=
  (high.toUInt16 <<< 8) ||| low.toUInt16

/-- The bytes of a version 6 address. -/
def Ipv6.octets (ip : Ipv6) : List UInt8 :=
  ip.groups.flatMap Ipv6.groupOctets

/-- The address with these groups, if they are eight. -/
def Ipv6.ofGroups? (groups : List UInt16) : Option Ipv6 :=
  if length_eq : groups.length = 8 then some ⟨groups, length_eq⟩ else none

/-- An internet address with a port; in version 6 also flow information and a scope. -/
inductive Address where
  | v4 (ip : Ipv4) (port : UInt16)
  | v6 (ip : Ipv6) (port : UInt16) (flow scope : UInt32)
deriving DecidableEq

namespace Address

/-- The numbers by which addresses are ordered, compared from left to right. -/
def key : Address → List Nat
  | .v4 ip port => 0 :: ip.octets.map UInt8.toNat ++ [port.toNat]
  | .v6 ip port flow scope =>
      1 :: ip.groups.map UInt16.toNat ++ [port.toNat, flow.toNat, scope.toNat]

/-- Different addresses have different keys. -/
theorem eq_of_key_eq {left right : Address} (h : left.key = right.key) : left = right := by
  match left, right with
  | .v4 ⟨_, _, _, _⟩ _, .v4 ⟨_, _, _, _⟩ _ =>
      simp only [key, Ipv4.octets, List.map_cons, List.map_nil, List.cons_append, List.nil_append,
        List.cons.injEq, UInt8.toNat_inj, UInt16.toNat_inj] at h
      simp_all
  | .v4 .., .v6 .. => simp [key] at h
  | .v6 .., .v4 .. => simp [key] at h
  | .v6 ⟨groups, length_eq⟩ _ _ _, .v6 ⟨groups', length_eq'⟩ _ _ _ =>
      simp only [key, List.cons_append, List.cons.injEq, true_and] at h
      obtain ⟨groups_eq, rest_eq⟩ := List.append_inj h (by simp [length_eq, length_eq'])
      have groups_eq : groups = groups' :=
        List.map_inj_right (fun _ _ => UInt16.toNat_inj.1) |>.1 groups_eq
      simp only [List.cons.injEq, UInt16.toNat_inj, UInt32.toNat_inj] at rest_eq
      simp_all

/-- Addresses are ordered by their keys. -/
instance : Ord Address := ⟨compareOn key⟩

instance : Std.TransOrd Address :=
  inferInstanceAs (Std.TransCmp (compareOn key))

instance : Std.LawfulEqOrd Address where
  compare_self := Std.ReflCmp.compare_self
  eq_of_compare h := eq_of_key_eq (Std.LawfulEqOrd.eq_of_compare (α := List Nat) h)

end Address

/-- A finite set of addresses. -/
abbrev AddressSet := Std.ExtTreeSet Address compare

end PeerFinder
