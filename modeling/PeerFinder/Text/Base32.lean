/-!
# Base 32 without padding

Reading the upper-case base 32 alphabet `A` to `Z`, `2` to `7`, five bits a symbol. Only lengths
that end on a whole byte are usable; the bits that remain after the last whole byte must be zero.
-/

namespace PeerFinder.Text.Base32

/-- The value of a symbol of the alphabet. -/
def digit? (character : Char) : Option Nat :=
  if 'A' ≤ character ∧ character ≤ 'Z' then some (character.toNat - 'A'.toNat)
  else if '2' ≤ character ∧ character ≤ '7' then some (character.toNat - '2'.toNat + 26)
  else none

/-- Why a text does not decode. -/
inductive Fault where
  /-- The length ends inside a byte; the longest usable beginning has this many symbols. -/
  | length (usable : Nat)
  /-- The symbol at this position is not in the alphabet. -/
  | symbol (position : Nat)
  /-- The last symbol, at this position, carries bits beyond the last whole byte. -/
  | trailing (position : Nat)
deriving DecidableEq, Repr

/-- The number of symbols in the longest usable beginning of a text of `length` symbols. -/
def usable (length : Nat) : Nat :=
  match length % 8 with
  | 1 | 3 | 6 => length - 1
  | _ => length

/-- The number of bytes that `length` symbols stand for, if the length is usable. -/
def byteCount (length : Nat) : Except Fault Nat :=
  if usable length = length then .ok (length * 5 / 8) else .error (.length (usable length))

/-- The values of the symbols, or the position of the first one outside the alphabet. -/
def digitsFrom (position : Nat) : List Char → Except Fault (List Nat)
  | [] => .ok []
  | character :: rest =>
      match digit? character with
      | none => .error (.symbol position)
      | some digit => (digitsFrom (position + 1) rest).map (digit :: ·)

/-- The `count` bytes of a number, most significant first. -/
def bigEndian : Nat → Nat → List UInt8
  | 0, _ => []
  | count + 1, number => bigEndian count (number / 256) ++ [UInt8.ofNat (number % 256)]

/-- Read a byte string. -/
def decode (symbols : List Char) : Except Fault (List UInt8) := do
  let count ← byteCount symbols.length
  let digits ← digitsFrom 0 symbols
  let number := digits.foldl (fun total digit => total * 32 + digit) 0
  let spare := Nat.pow 2 (symbols.length * 5 % 8)
  if number % spare = 0 then .ok (bigEndian count (number / spare))
  else .error (.trailing (symbols.length - 1))

end PeerFinder.Text.Base32
