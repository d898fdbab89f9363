/-!
# Hexadecimal text

Byte strings written as pairs of lower-case hexadecimal digits. `Hex.encode` writes them and
`Hex.decode` reads them, answering the position of the first symbol that is no digit.
-/

namespace PeerFinder.Text.Hex

/-- The two digits of one byte. -/
def encodeByte (byte : UInt8) : List Char :=
  [Nat.digitChar (byte.toNat / 16), Nat.digitChar (byte.toNat % 16)]

/-- The digits of a byte string, two for each byte. -/
def encode (bytes : List UInt8) : List Char :=
  bytes.flatMap encodeByte

/-- The digits of a byte string as text. -/
def text (bytes : List UInt8) : String :=
  String.ofList (encode bytes)

/-- The value of a lower-case hexadecimal digit. -/
def digit? (character : Char) : Option Nat :=
  if '0' ≤ character ∧ character ≤ '9' then some (character.toNat - '0'.toNat)
  else if 'a' ≤ character ∧ character ≤ 'f' then some (character.toNat - 'a'.toNat + 10)
  else none

/-- Read digits in pairs, counting symbols from `position`. A symbol that is no digit, or that
lacks its partner, is answered by its position. -/
def decodeFrom (position : Nat) : List Char → Except Nat (List UInt8)
  | [] => .ok []
  | [_] => .error position
  | high :: low :: rest =>
      match digit? high with
      | none => .error position
      | some highValue =>
        match digit? low with
        | none => .error (position + 1)
        | some lowValue =>
          (decodeFrom (position + 2) rest).map (UInt8.ofNat (highValue * 16 + lowValue) :: ·)

/-- Read a byte string, or answer the position of the first symbol that is no digit. -/
def decode (symbols : List Char) : Except Nat (List UInt8) :=
  decodeFrom 0 symbols

end PeerFinder.Text.Hex
