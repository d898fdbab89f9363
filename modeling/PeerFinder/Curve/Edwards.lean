import PeerFinder.Curve.Field

/-!
# The twisted Edwards curve

The curve `y² - x² = 1 + d x² y²` over the field modulo `2 ^ 255 - 19`. A point is written as
32 bytes: `y` with the least significant byte first, and the parity of `x` in the top bit.
`Edwards.decompresses` says which byte strings stand for a point, and `Edwards.multiple` computes
multiples of the base point.
-/

namespace PeerFinder.Curve.Edwards

open PeerFinder.Curve.Field

/-- The curve constant `d`. -/
def constant : Nat :=
  37095705934669439343138083508754565189542113879843219016388785533085940283555

/-- The order of the base point. -/
def order : Nat :=
  Nat.pow 2 252 + 27742317777372353535851937790883648493

/-- The number written by bytes with the least significant first. -/
def littleEndian (bytes : List UInt8) : Nat :=
  bytes.foldr (fun byte total => byte.toNat + 256 * total) 0

/-- The `count` lowest bytes of a number, least significant first. -/
def bytesOf : (count number : Nat) → List UInt8
  | 0, _ => []
  | count + 1, number => UInt8.ofNat (number % 256) :: bytesOf count (number / 256)

/-- Whether 32 bytes stand for a point: the `y` they hold, reduced modulo the prime, has an `x`.
The parity bit chooses between `x` and `-x` and is free when `x` is zero. -/
def decompresses (bytes : List UInt8) : Bool :=
  let y := littleEndian bytes % Nat.pow 2 255 % prime
  let square := y * y % prime
  let numerator := subtract square 1
  let denominator := (constant * square + 1) % prime
  isSquare (numerator * denominator % prime)

/-- A point in extended coordinates `x / z`, `y / z` with `t = x y / z`. -/
structure Point where
  x : Nat
  y : Nat
  z : Nat
  t : Nat

/-- The neutral point. -/
def Point.zero : Point := ⟨0, 1, 1, 0⟩

/-- The base point. -/
def Point.base : Point :=
  let x := 15112221349535400772501151409588531511454012693041857206046113283949847762202
  let y := 46316835694926478169428394003475163141307993866256225615783033603165251855960
  ⟨x, y, 1, x * y % prime⟩

/-- The sum of two points. The formula has no exceptional cases on this curve. -/
def Point.add (left right : Point) : Point :=
  let a := subtract left.y left.x * subtract right.y right.x % prime
  let b := (left.y + left.x) * (right.y + right.x) % prime
  let c := left.t * (2 * constant) % prime * right.t % prime
  let d := 2 * left.z * right.z % prime
  let e := subtract b a
  let f := subtract d c
  let g := (d + c) % prime
  let h := (b + a) % prime
  ⟨e * f % prime, g * h % prime, f * g % prime, e * h % prime⟩

/-- Twice a point, by the shorter formula. -/
def Point.double (point : Point) : Point :=
  let a := point.x * point.x % prime
  let b := point.y * point.y % prime
  let c := 2 * point.z * point.z % prime
  let h := (a + b) % prime
  let e := subtract h ((point.x + point.y) * (point.x + point.y) % prime)
  let g := subtract a b
  let f := (c + g) % prime
  ⟨e * f % prime, g * h % prime, f * g % prime, e * h % prime⟩

/-- `scalar` times a point, for scalars of at most `bits` bits. -/
def Point.scale : (bits scalar : Nat) → Point → Point
  | 0, _, _ => .zero
  | bits + 1, scalar, point =>
      let rest := Point.scale bits (scalar / 2) point.double
      if scalar % 2 = 1 then rest.add point else rest

/-- The 32 bytes of a point. -/
def Point.compress (point : Point) : List UInt8 :=
  let unit := inverse point.z
  let x := point.x * unit % prime
  let y := point.y * unit % prime
  bytesOf 32 (y + x % 2 * Nat.pow 2 255)

/-- The bytes of `scalar` times the base point. -/
def multiple (scalar : Nat) : List UInt8 :=
  (Point.base.scale 256 scalar).compress

end PeerFinder.Curve.Edwards
