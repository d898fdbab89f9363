import PeerFinder.Record.Basic

/-!
# The stored form of provider records

A record is stored as the 32 bytes of its identity, the number of addresses, each address, and the
time of publication. An address is a tag (0 for version 4, 1 for version 6), the bytes of the
internet address, and the port; flow information and scope are not stored. Numbers are in groups of
seven bits. Bytes after the record are ignored by `ProviderRecord.decode`.
-/

namespace PeerFinder

namespace Record

/-- A reader of bytes answers what it read and the bytes after it. -/
abbrev Decoder (α : Type) := List UInt8 → Except CodecFault (α × List UInt8)

/-- Read exactly `count` bytes. -/
def takeBytes (count : Nat) : Decoder { bytes : List UInt8 // bytes.length = count } := fun bytes =>
  if h : count ≤ bytes.length then .ok (⟨bytes.take count, by simp [h]⟩, bytes.drop count)
  else .error .endOfBuffer

end Record

open Record

namespace Address

/-- The stored form of an address. -/
def encode : Address → List UInt8
  | .v4 ip port => Varint.encode .u32 0 ++ ip.octets ++ Varint.encode .u16 port.toNat
  | .v6 ip port _ _ => Varint.encode .u32 1 ++ ip.octets ++ Varint.encode .u16 port.toNat

/-- Read a port. -/
def decodePort : Decoder UInt16 := fun bytes => do
  let (port, rest) ← Varint.decode .u16 bytes
  return (UInt16.ofNat port, rest)

/-- Read the four bytes of a version 4 address. -/
def decodeIpv4 : Decoder Ipv4
  | a :: b :: c :: d :: rest => .ok (⟨a, b, c, d⟩, rest)
  | _ => .error .endOfBuffer

/-- Read `count` groups of a version 6 address. -/
def decodeGroups : (count : Nat) → Decoder { groups : List UInt16 // groups.length = count }
  | 0, bytes => .ok (⟨[], rfl⟩, bytes)
  | count + 1, high :: low :: rest => do
      let (groups, rest) ← decodeGroups count rest
      return (⟨Ipv6.groupOfOctets high low :: groups.1, by simp [groups.2]⟩, rest)
  | _ + 1, _ => .error .endOfBuffer

/-- Read an address. -/
def decode : Decoder Address := fun bytes => do
  let (tag, bytes) ← Varint.decode .u32 bytes
  match tag with
  | 0 =>
      let (ip, bytes) ← decodeIpv4 bytes
      let (port, bytes) ← decodePort bytes
      return (.v4 ip port, bytes)
  | 1 =>
      let (groups, bytes) ← decodeGroups 8 bytes
      let (port, bytes) ← decodePort bytes
      return (.v6 ⟨groups.1, groups.2⟩ port 0 0, bytes)
  | _ => throw .unknownTag

/-- Read `count` addresses. -/
def decodeMany : (count : Nat) → Decoder (List Address)
  | 0, bytes => .ok ([], bytes)
  | count + 1, bytes => do
      let (address, bytes) ← decode bytes
      let (addresses, bytes) ← decodeMany count bytes
      return (address :: addresses, bytes)

end Address

namespace ProviderRecord

/-- The stored form of a record. -/
def encode (record : ProviderRecord) : List UInt8 :=
  record.nodeId ++ Varint.encode .u64 record.addresses.length ++
    record.addresses.flatMap Address.encode ++ Varint.encode .u64 record.publishedAt.toNat

/-- Read a record and answer the bytes after it. -/
def decodeFrom : Decoder ProviderRecord := fun bytes => do
  let (nodeId, bytes) ← takeBytes 32 bytes
  let (count, bytes) ← Varint.decode .u64 bytes
  let (addresses, bytes) ← Address.decodeMany count bytes
  let (publishedAt, bytes) ← Varint.decode .u64 bytes
  return (⟨nodeId.1, nodeId.2, addresses, UInt64.ofNat publishedAt⟩, bytes)

/-- The record at the beginning of a byte string. -/
def decode (bytes : List UInt8) : Except CodecFault ProviderRecord :=
  (decodeFrom bytes).map Prod.fst

end ProviderRecord

end PeerFinder
