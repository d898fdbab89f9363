/-!
# The 80-round digest on 64-bit words

The digest of a byte string in eight words of 64 bits. `Sha512.pad` completes the input to whole
blocks, `Sha512.schedule` stretches a block to one word a round, and `Sha512.digest` folds the
blocks into the state.
-/

namespace PeerFinder.Digest.Sha512

/-- The initial state: the fractional bits of the square roots of the first eight primes. -/
def initial : List UInt64 :=
  [0x6a09e667f3bcc908, 0xbb67ae8584caa73b, 0x3c6ef372fe94f82b, 0xa54ff53a5f1d36f1,
   0x510e527fade682d1, 0x9b05688c2b3e6c1f, 0x1f83d9abfb41bd6b, 0x5be0cd19137e2179]

/-- One constant a round: the fractional bits of the cube roots of the first 80 primes. -/
def constants : List UInt64 :=
  [0x428a2f98d728ae22, 0x7137449123ef65cd, 0xb5c0fbcfec4d3b2f, 0xe9b5dba58189dbbc,
   0x3956c25bf348b538, 0x59f111f1b605d019, 0x923f82a4af194f9b, 0xab1c5ed5da6d8118,
   0xd807aa98a3030242, 0x12835b0145706fbe, 0x243185be4ee4b28c, 0x550c7dc3d5ffb4e2,
   0x72be5d74f27b896f, 0x80deb1fe3b1696b1, 0x9bdc06a725c71235, 0xc19bf174cf692694,
   0xe49b69c19ef14ad2, 0xefbe4786384f25e3, 0x0fc19dc68b8cd5b5, 0x240ca1cc77ac9c65,
   0x2de92c6f592b0275, 0x4a7484aa6ea6e483, 0x5cb0a9dcbd41fbd4, 0x76f988da831153b5,
   0x983e5152ee66dfab, 0xa831c66d2db43210, 0xb00327c898fb213f, 0xbf597fc7beef0ee4,
   0xc6e00bf33da88fc2, 0xd5a79147930aa725, 0x06ca6351e003826f, 0x142929670a0e6e70,
   0x27b70a8546d22ffc, 0x2e1b21385c26c926, 0x4d2c6dfc5ac42aed, 0x53380d139d95b3df,
   0x650a73548baf63de, 0x766a0abb3c77b2a8, 0x81c2c92e47edaee6, 0x92722c851482353b,
   0xa2bfe8a14cf10364, 0xa81a664bbc423001, 0xc24b8b70d0f89791, 0xc76c51a30654be30,
   0xd192e819d6ef5218, 0xd69906245565a910, 0xf40e35855771202a, 0x106aa07032bbd1b8,
   0x19a4c116b8d2d0c8, 0x1e376c085141ab53, 0x2748774cdf8eeb99, 0x34b0bcb5e19b48a8,
   0x391c0cb3c5c95a63, 0x4ed8aa4ae3418acb, 0x5b9cca4f7763e373, 0x682e6ff3d6b2b8a3,
   0x748f82ee5defb2fc, 0x78a5636f43172f60, 0x84c87814a1f0ab72, 0x8cc702081a6439ec,
   0x90befffa23631e28, 0xa4506cebde82bde9, 0xbef9a3f7b2c67915, 0xc67178f2e372532b,
   0xca273eceea26619c, 0xd186b8c721c0c207, 0xeada7dd6cde0eb1e, 0xf57d4f7fee6ed178,
   0x06f067aa72176fba, 0x0a637dc5a2c898a6, 0x113f9804bef90dae, 0x1b710b35131c471b,
   0x28db77f523047d84, 0x32caab7b40c72493, 0x3c9ebe0a15c9bebc, 0x431d67c49c100d4c,
   0x4cc5d4becb3e42b6, 0x597f299cfc657e2a, 0x5fcb6fab3ad6faec, 0x6c44198c4a475817]

/-- Rotate a word to the right. -/
def rotate (word : UInt64) (count : UInt64) : UInt64 :=
  (word >>> count) ||| (word <<< (64 - count))

/-- The word of 8 bytes, most significant first. -/
def wordOfBytes (bytes : List UInt8) : UInt64 :=
  bytes.foldl (fun word byte => (word <<< 8) ||| byte.toUInt64) 0

/-- The 8 bytes of a word, most significant first. -/
def bytesOfWord (word : UInt64) : List UInt8 :=
  (List.range 8).map fun index => (word >>> UInt64.ofNat (8 * (7 - index))).toUInt8

/-- The input completed to whole blocks of 128 bytes: a one bit, zeros, and the length in bits in
16 bytes. -/
def pad (message : List UInt8) : List UInt8 :=
  let length := message.length
  let zeros := (128 - (length + 1 + 16) % 128) % 128
  let lengthBytes := (List.range 16).map fun index =>
    UInt8.ofNat (length * 8 / Nat.pow 256 (15 - index))
  message ++ 0x80 :: List.replicate zeros 0 ++ lengthBytes

/-- Cut a list into pieces of `size`, at most `count` of them. -/
def pieces (size : Nat) : Nat → List UInt8 → List (List UInt8)
  | 0, _ => []
  | count + 1, bytes => bytes.take size :: pieces size count (bytes.drop size)

/-- Extend the schedule by `count` words. The words so far come last first. -/
def extend : Nat → List UInt64 → List UInt64
  | 0, words => words
  | count + 1, words =>
      let word (back : Nat) := words.getD (back - 1) 0
      let low := rotate (word 15) 1 ^^^ rotate (word 15) 8 ^^^ (word 15 >>> 7)
      let high := rotate (word 2) 19 ^^^ rotate (word 2) 61 ^^^ (word 2 >>> 6)
      extend count ((word 16 + low + word 7 + high) :: words)

/-- The words of all rounds for one block. -/
def schedule (block : List UInt8) : List UInt64 :=
  (extend 64 ((pieces 8 16 block).map wordOfBytes).reverse).reverse

/-- The eight working words of a round. -/
structure State where
  a : UInt64
  b : UInt64
  c : UInt64
  d : UInt64
  e : UInt64
  f : UInt64
  g : UInt64
  h : UInt64

/-- The state with the words of a list, missing ones being zero. -/
def State.ofList (words : List UInt64) : State :=
  ⟨words.getD 0 0, words.getD 1 0, words.getD 2 0, words.getD 3 0,
   words.getD 4 0, words.getD 5 0, words.getD 6 0, words.getD 7 0⟩

/-- The words of a state in order. -/
def State.toList (state : State) : List UInt64 :=
  [state.a, state.b, state.c, state.d, state.e, state.f, state.g, state.h]

/-- One round with its constant and its word of the schedule. -/
def State.round (state : State) (constant word : UInt64) : State :=
  let sum := rotate state.e 14 ^^^ rotate state.e 18 ^^^ rotate state.e 41
  let choice := (state.e &&& state.f) ^^^ (state.e.complement &&& state.g)
  let first := state.h + sum + choice + constant + word
  let spread := rotate state.a 28 ^^^ rotate state.a 34 ^^^ rotate state.a 39
  let majority := (state.a &&& state.b) ^^^ (state.a &&& state.c) ^^^ (state.b &&& state.c)
  ⟨first + (spread + majority), state.a, state.b, state.c,
   state.d + first, state.e, state.f, state.g⟩

/-- Fold one block into the state words. -/
def compress (words : List UInt64) (block : List UInt8) : List UInt64 :=
  let final := (constants.zip (schedule block)).foldl
    (fun state (constant, word) => state.round constant word) (State.ofList words)
  words.zipWith (· + ·) final.toList

/-- The digest of a byte string. -/
def digest (message : List UInt8) : List UInt8 :=
  let padded := pad message
  ((pieces 128 (padded.length / 128) padded).foldl compress initial).flatMap bytesOfWord

end PeerFinder.Digest.Sha512
