/-!
# Numbers in groups of seven bits

A number is written from its least significant group on; every byte but the last has its top bit
set. A reader accepts at most a given number of bytes, the last of which has a bound of its own, so
that the value fits the type it is read for. Longer spellings of a small number are accepted.
-/

namespace PeerFinder.Record

/-- Why bytes are no record. -/
inductive CodecFault where
  /-- The bytes end inside a record. -/
  | endOfBuffer
  /-- A number runs over more bytes than its type has room for. -/
  | unterminated
  /-- The tag of an address is neither of the two versions. -/
  | unknownTag
deriving DecidableEq, Repr

/-- The wording of a fault. -/
def CodecFault.message : CodecFault → String
  | .endOfBuffer => "Hit the end of buffer, expected more data"
  | .unterminated => "Found a varint that didn't terminate. Is the usize too big for this platform?"
  | .unknownTag => "Serde Deserialization Error"

namespace Varint

/-- The bytes of a number of at most `groups + 1` groups of seven bits. -/
def encodeGroups : (groups number : Nat) → List UInt8
  | 0, number => [UInt8.ofNat number]
  | groups + 1, number =>
      if number < 128 then [UInt8.ofNat number]
      else UInt8.ofNat (128 + number % 128) :: encodeGroups groups (number / 128)

/-- The bounds of a numeric type: bytes before the last possible one, and the greatest value that
one may have. -/
structure Width where
  before : Nat
  last : Nat

/-- Numbers of sixteen bits. -/
def Width.u16 : Width := ⟨2, 0x03⟩

/-- Numbers of 32 bits. -/
def Width.u32 : Width := ⟨4, 0x0f⟩

/-- Numbers of 64 bits. -/
def Width.u64 : Width := ⟨9, 0x01⟩

/-- The bytes of a number. -/
def encode (width : Width) (number : Nat) : List UInt8 :=
  encodeGroups width.before number

/-- Read a number of which at most `before` bytes come before the last possible one. -/
def decodeGroups (last : Nat) :
    (before : Nat) → List UInt8 → Except CodecFault (Nat × List UInt8)
  | _, [] => .error .endOfBuffer
  | 0, byte :: rest =>
      if byte.toNat ≤ last then .ok (byte.toNat, rest) else .error .unterminated
  | before + 1, byte :: rest =>
      if byte.toNat < 128 then .ok (byte.toNat, rest)
      else do
        let (high, rest) ← decodeGroups last before rest
        .ok (byte.toNat % 128 + 128 * high, rest)

/-- Read a number and answer the bytes after it. -/
def decode (width : Width) (bytes : List UInt8) : Except CodecFault (Nat × List UInt8) :=
  decodeGroups width.last width.before bytes

end Varint

end PeerFinder.Record
