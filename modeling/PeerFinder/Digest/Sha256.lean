/-!
# The 64-round digest on 32-bit words

The digest of a byte string in eight words of 32 bits. `Sha256.pad` completes the input to whole
blocks, `Sha256.schedule` stretches a block to one word a round, and `Sha256.digest` folds the
blocks into the state.
-/

namespace PeerFinder.Digest.Sha256

/-- The initial state: the fractional bits of the square roots of the first eight primes. -/
def initial : List UInt32 :=
  [0x6a09e667, 0xbb67ae85, 0x3c6ef372, 0xa54ff53a, 0x510e527f, 0x9b05688c,
   0x1f83d9ab, 0x5be0cd19]

/-- One constant a round: the fractional bits of the cube roots of the first 64 primes. -/
def constants : List UInt32 :=
  [0x428a2f98, 0x71374491, 0xb5c0fbcf, 0xe9b5dba5, 0x3956c25b, 0x59f111f1,
   0x923f82a4, 0xab1c5ed5, 0xd807aa98, 0x12835b01, 0x243185be, 0x550c7dc3,
   0x72be5d74, 0x80deb1fe, 0x9bdc06a7, 0xc19bf174, 0xe49b69c1, 0xefbe4786,
   0x0fc19dc6, 0x240ca1cc, 0x2de92c6f, 0x4a7484aa, 0x5cb0a9dc, 0x76f988da,
   0x983e5152, 0xa831c66d, 0xb00327c8, 0xbf597fc7, 0xc6e00bf3, 0xd5a79147,
   0x06ca6351, 0x14292967, 0x27b70a85, 0x2e1b2138, 0x4d2c6dfc, 0x53380d13,
   0x650a7354, 0x766a0abb, 0x81c2c92e, 0x92722c85, 0xa2bfe8a1, 0xa81a664b,
   0xc24b8b70, 0xc76c51a3, 0xd192e819, 0xd6990624, 0xf40e3585, 0x106aa070,
   0x19a4c116, 0x1e376c08, 0x2748774c, 0x34b0bcb5, 0x391c0cb3, 0x4ed8aa4a,
   0x5b9cca4f, 0x682e6ff3, 0x748f82ee, 0x78a5636f, 0x84c87814, 0x8cc70208,
   0x90befffa, 0xa4506ceb, 0xbef9a3f7, 0xc67178f2]

/-- Rotate a word to the right. -/
def rotate (word : UInt32) (count : UInt32) : UInt32 :=
  (word >>> count) ||| (word <<< (32 - count))

/-- The word of 4 bytes, most significant first. -/
def wordOfBytes (bytes : List UInt8) : UInt32 :=
  bytes.foldl (fun word byte => (word <<< 8) ||| byte.toUInt32) 0

/-- The 4 bytes of a word, most significant first. -/
def bytesOfWord (word : UInt32) : List UInt8 :=
  (List.range 4).map fun index => (word >>> UInt32.ofNat (8 * (3 - index))).toUInt8

/-- The input completed to whole blocks of 64 bytes: a one bit, zeros, and the length in bits in
8 bytes. -/
def pad (message : List UInt8) : List UInt8 :=
  let length := message.length
  let zeros := (64 - (length + 1 + 8) % 64) % 64
  let lengthBytes := (List.range 8).map fun index =>
    UInt8.ofNat (length * 8 / Nat.pow 256 (7 - index))
  message ++ 0x80 :: List.replicate zeros 0 ++ lengthBytes

/-- Cut a list into pieces of `size`, at most `count` of them. -/
def pieces (size : Nat) : Nat → List UInt8 → List (List UInt8)
  | 0, _ => []
  | count + 1, bytes => bytes.take size :: pieces size count (bytes.drop size)

/-- Extend the schedule by `count` words. The words so far come last first. -/
def extend : Nat → List UInt32 → List UInt32
  | 0, words => words
  | count + 1, words =>
      let word (back : Nat) := words.getD (back - 1) 0
      let low := rotate (word 15) 7 ^^^ rotate (word 15) 18 ^^^ (word 15 >>> 3)
      let high := rotate (word 2) 17 ^^^ rotate (word 2) 19 ^^^ (word 2 >>> 10)
      extend count ((word 16 + low + word 7 + high) :: words)

/-- The words of all rounds for one block. -/
def schedule (block : List UInt8) : List UInt32 :=
  (extend 48 ((pieces 4 16 block).map wordOfBytes).reverse).reverse

/-- The eight working words of a round. -/
structure State where
  a : UInt32
  b : UInt32
  c : UInt32
  d : UInt32
  e : UInt32
  f : UInt32
  g : UInt32
  h : UInt32

/-- The state with the words of a list, missing ones being zero. -/
def State.ofList (words : List UInt32) : State :=
  ⟨words.getD 0 0, words.getD 1 0, words.getD 2 0, words.getD 3 0,
   words.getD 4 0, words.getD 5 0, words.getD 6 0, words.getD 7 0⟩

/-- The words of a state in order. -/
def State.toList (state : State) : List UInt32 :=
  [state.a, state.b, state.c, state.d, state.e, state.f, state.g, state.h]

/-- One round with its constant and its word of the schedule. -/
def State.round (state : State) (constant word : UInt32) : State :=
  let sum := rotate state.e 6 ^^^ rotate state.e 11 ^^^ rotate state.e 25
  let choice := (state.e &&& state.f) ^^^ (state.e.complement &&& state.g)
  let first := state.h + sum + choice + constant + word
  let spread := rotate state.a 2 ^^^ rotate state.a 13 ^^^ rotate state.a 22
  let majority := (state.a &&& state.b) ^^^ (state.a &&& state.c) ^^^ (state.b &&& state.c)
  ⟨first + (spread + majority), state.a, state.b, state.c,
   state.d + first, state.e, state.f, state.g⟩

/-- Fold one block into the state words. -/
def compress (words : List UInt32) (block : List UInt8) : List UInt32 :=
  let final := (constants.zip (schedule block)).foldl
    (fun state (constant, word) => state.round constant word) (State.ofList words)
  words.zipWith (· + ·) final.toList

/-- The digest of a byte string. -/
def digest (message : List UInt8) : List UInt8 :=
  let padded := pad message
  ((pieces 64 (padded.length / 64) padded).foldl compress initial).flatMap bytesOfWord

end PeerFinder.Digest.Sha256
