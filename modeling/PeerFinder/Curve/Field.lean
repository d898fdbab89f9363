/-!
# Arithmetic modulo `2 ^ 255 - 19`

The prime field that the curve is defined over, with residues as natural numbers.
-/

namespace PeerFinder.Curve.Field

/-- The prime `2 ^ 255 - 19`. -/
def prime : Nat := Nat.pow 2 255 - 19

/-- `base ^ exponent` modulo `modulus`, by squaring, for exponents of at most `bits` bits. -/
def powerMod (modulus : Nat) : (bits base exponent : Nat) → Nat
  | 0, _, _ => 1 % modulus
  | bits + 1, base, exponent =>
      let rest := powerMod modulus bits (base * base % modulus) (exponent / 2)
      if exponent % 2 = 1 then rest * base % modulus else rest

/-- A power in the field. -/
def power (base exponent : Nat) : Nat :=
  powerMod prime 255 base exponent

/-- The inverse of a residue that is not zero; zero for zero. -/
def inverse (element : Nat) : Nat :=
  power element (prime - 2)

/-- The difference of two residues below the prime. -/
def subtract (left right : Nat) : Nat :=
  (left + prime - right) % prime

/-- Whether an element is the square of another: Euler's criterion, zero being a square. -/
def isSquare (element : Nat) : Bool :=
  power element ((prime - 1) / 2) ≤ 1

end PeerFinder.Curve.Field
