import Mathlib.Algebra.Order.Ring.Nat
import PeerFinder.Record.Codec

/-!
# Reading back what was stored

The stored form keeps everything of a record but the flow information and the scopes of its version
6 addresses. `ProviderRecord.decode_encode` says that reading the stored form of a record yields
`ProviderRecord.stored`, the record without these. Every reader is followed by the bytes it leaves
alone, so that the readers compose.
-/

namespace PeerFinder

namespace Record.Varint

/-- The numbers below this bound fit a type. -/
def Width.bound (width : Width) : Nat :=
  128 ^ width.before * (width.last + 1)

/-- Groups are read back if the number fits and the last byte is one. -/
theorem decode_groups_encode_groups {last : Nat} (hlast : last < 256) (before number : Nat)
    (rest : List UInt8) (hfits : number < 128 ^ before * (last + 1)) :
    decodeGroups last before (encodeGroups before number ++ rest) = .ok (number, rest) := by
  induction before generalizing number with
  | zero =>
      have hbyte : (UInt8.ofNat number).toNat = number := by
        rw [UInt8.toNat_ofNat']
        omega
      simp only [encodeGroups, List.cons_append, List.nil_append, decodeGroups, hbyte]
      rw [if_pos (by omega)]
  | succ before ih =>
      by_cases hsmall : number < 128
      · have hbyte : (UInt8.ofNat number).toNat = number := by
          rw [UInt8.toNat_ofNat']
          omega
        simp [encodeGroups, hsmall, decodeGroups, hbyte]
      · have hbyte : (UInt8.ofNat (128 + number % 128)).toNat = 128 + number % 128 := by
          rw [UInt8.toNat_ofNat']
          omega
        have hrest : number / 128 < 128 ^ before * (last + 1) := by
          rw [Nat.div_lt_iff_lt_mul (by decide)]
          calc number < 128 ^ (before + 1) * (last + 1) := hfits
            _ = 128 ^ before * (last + 1) * 128 := by rw [Nat.pow_succ]; ac_rfl
        have hvalue : (128 + number % 128) % 128 + 128 * (number / 128) = number := by omega
        simp only [encodeGroups, hsmall, if_false, List.cons_append, decodeGroups, hbyte]
        rw [if_neg (by omega), ih (number / 128) hrest]
        exact congrArg (fun value => Except.ok (value, rest)) hvalue

/-- A number that fits is read back. -/
theorem decode_encode (width : Width) (hlast : width.last < 256) (number : Nat)
    (rest : List UInt8) (hfits : number < width.bound) :
    decode width (encode width number ++ rest) = .ok (number, rest) :=
  decode_groups_encode_groups hlast width.before number rest hfits

end Record.Varint

open Record

/-- Exactly the first bytes are read. -/
theorem Record.take_bytes_append {count : Nat} (bytes rest : List UInt8)
    (hlength : bytes.length = count) :
    takeBytes count (bytes ++ rest) = .ok (⟨bytes, hlength⟩, rest) := by
  subst hlength
  simp [takeBytes]

/-- The two bytes of a group stand for it. -/
theorem Ipv6.group_of_octets (group : UInt16) :
    groupOfOctets (group >>> 8).toUInt8 group.toUInt8 = group := by
  apply UInt16.toNat_inj.1
  have hlow : group.toNat % 256 < 2 ^ 8 := Nat.mod_lt _ (by decide)
  have hgroup := group.toNat_lt
  have hhigh : group.toNat / 256 % 256 = group.toNat / 256 := by omega
  simp only [groupOfOctets, UInt16.toNat_or, UInt16.toNat_shiftLeft, UInt8.toNat_toUInt16,
    UInt16.toNat_toUInt8, UInt16.toNat_shiftRight]
  simp only [UInt16.reduceToNat, Nat.reduceMod, Nat.shiftRight_eq_div_pow, Nat.reducePow, hhigh]
  rw [Nat.mod_eq_of_lt (by rw [Nat.shiftLeft_eq]; omega), Nat.shiftLeft_eq, Nat.mul_comm,
    ← Nat.two_pow_add_eq_or_of_lt hlow]
  omega

namespace Address

/-- The address as it is stored: without flow information and scope. -/
def stored : Address → Address
  | .v4 ip port => .v4 ip port
  | .v6 ip port _ _ => .v6 ip port 0 0

/-- A port is read back. -/
theorem decode_port_encode (port : UInt16) (rest : List UInt8) :
    decodePort (Varint.encode .u16 port.toNat ++ rest) = .ok (port, rest) := by
  have hfits : port.toNat < Varint.Width.u16.bound := port.toNat_lt
  simp [decodePort, Varint.decode_encode .u16 (by decide) _ _ hfits, bind, Except.bind, pure,
    Except.pure]

/-- The groups of a version 6 address are read back from its bytes. -/
theorem decode_groups_octets {count : Nat} (groups : List UInt16)
    (hlength : groups.length = count) (rest : List UInt8) :
    decodeGroups count (groups.flatMap Ipv6.groupOctets ++ rest) =
      .ok (⟨groups, hlength⟩, rest) := by
  induction groups generalizing count with
  | nil =>
      subst hlength
      rfl
  | cons group groups ih =>
      subst hlength
      simp [decodeGroups, Ipv6.groupOctets, ih rfl, Ipv6.group_of_octets, bind, Except.bind, pure,
        Except.pure]

/-- The tag of an address is read back. -/
theorem decode_tag_encode {tag : Nat} (htag : tag < 2) (rest : List UInt8) :
    Varint.decode .u32 (Varint.encode .u32 tag ++ rest) = .ok (tag, rest) :=
  Varint.decode_encode .u32 (by decide) tag rest (Nat.lt_trans htag (by decide))

/-- An address is read back as it is stored. -/
theorem decode_encode (address : Address) (rest : List UInt8) :
    decode (encode address ++ rest) = .ok (address.stored, rest) := by
  cases address with
  | v4 ip port =>
      simp [encode, decode, decode_tag_encode, decodeIpv4, Ipv4.octets, decode_port_encode, stored,
        bind, Except.bind, pure, Except.pure]
  | v6 ip port flow scope =>
      simp [encode, decode, decode_tag_encode, Ipv6.octets,
        decode_groups_octets ip.groups ip.length_eq, decode_port_encode, stored, bind,
        Except.bind, pure, Except.pure]

/-- Addresses are read back as they are stored. -/
theorem decode_many_encode (addresses : List Address) (rest : List UInt8) :
    decodeMany addresses.length (addresses.flatMap encode ++ rest) =
      .ok (addresses.map stored, rest) := by
  induction addresses with
  | nil => rfl
  | cons address addresses ih =>
      simp [decodeMany, decode_encode, ih, bind, Except.bind, pure, Except.pure]

end Address

namespace ProviderRecord

/-- The record as it is stored: without the flow information and the scopes of its addresses. -/
def stored (record : ProviderRecord) : ProviderRecord :=
  { record with addresses := record.addresses.map Address.stored }

/-- Whether the number of addresses fits the sixty-four bits it is stored in. -/
def IsStorable (record : ProviderRecord) : Prop :=
  record.addresses.length < 2 ^ 64

/-- A record is read back as it is stored, and the bytes after it are left alone. -/
theorem decode_from_encode (record : ProviderRecord) (hstorable : record.IsStorable)
    (rest : List UInt8) :
    decodeFrom (encode record ++ rest) = .ok (record.stored, rest) := by
  have hcount : record.addresses.length < Varint.Width.u64.bound := hstorable
  have htime : record.publishedAt.toNat < Varint.Width.u64.bound := record.publishedAt.toNat_lt
  simp [decodeFrom, encode, take_bytes_append record.nodeId _ record.length_eq,
    Varint.decode_encode .u64 (by decide) _ _ hcount, Address.decode_many_encode,
    Varint.decode_encode .u64 (by decide) _ _ htime, stored, bind, Except.bind, pure, Except.pure]

/-- The stored form of a record is read as the record without what is not stored. -/
theorem decode_encode (record : ProviderRecord) (hstorable : record.IsStorable) :
    decode record.encode = .ok record.stored := by
  have hread := decode_from_encode record hstorable []
  rw [List.append_nil] at hread
  simp [decode, hread, Except.map]

end ProviderRecord

end PeerFinder
