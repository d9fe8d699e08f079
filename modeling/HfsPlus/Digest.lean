import HfsPlus.Hasher

/-!
# The SHA-256 digest

The digest of a byte string: it is padded with a one bit, zeros and its length in
bits to whole blocks of 64 bytes, and each block in turn is mixed into a state of
eight words, whose bytes are the digest. While a text comes in, its whole blocks are
mixed at once and only what lies behind them is kept.
-/

namespace HfsPlus.Digest

/-- The first 32 bits of the fractional parts of the cube roots of the first 64
primes. -/
def roundConstants : Array UInt32 := #[
  0x428a2f98, 0x71374491, 0xb5c0fbcf, 0xe9b5dba5, 0x3956c25b, 0x59f111f1, 0x923f82a4, 0xab1c5ed5,
  0xd807aa98, 0x12835b01, 0x243185be, 0x550c7dc3, 0x72be5d74, 0x80deb1fe, 0x9bdc06a7, 0xc19bf174,
  0xe49b69c1, 0xefbe4786, 0x0fc19dc6, 0x240ca1cc, 0x2de92c6f, 0x4a7484aa, 0x5cb0a9dc, 0x76f988da,
  0x983e5152, 0xa831c66d, 0xb00327c8, 0xbf597fc7, 0xc6e00bf3, 0xd5a79147, 0x06ca6351, 0x14292967,
  0x27b70a85, 0x2e1b2138, 0x4d2c6dfc, 0x53380d13, 0x650a7354, 0x766a0abb, 0x81c2c92e, 0x92722c85,
  0xa2bfe8a1, 0xa81a664b, 0xc24b8b70, 0xc76c51a3, 0xd192e819, 0xd6990624, 0xf40e3585, 0x106aa070,
  0x19a4c116, 0x1e376c08, 0x2748774c, 0x34b0bcb5, 0x391c0cb3, 0x4ed8aa4a, 0x5b9cca4f, 0x682e6ff3,
  0x748f82ee, 0x78a5636f, 0x84c87814, 0x8cc70208, 0x90befffa, 0xa4506ceb, 0xbef9a3f7, 0xc67178f2]

/-- The eight words that are mixed. -/
structure State where
  a : UInt32
  b : UInt32
  c : UInt32
  d : UInt32
  e : UInt32
  f : UInt32
  g : UInt32
  h : UInt32

/-- The first 32 bits of the fractional parts of the square roots of the first eight
primes. -/
def State.initial : State :=
  ⟨0x6a09e667, 0xbb67ae85, 0x3c6ef372, 0xa54ff53a, 0x510e527f, 0x9b05688c, 0x1f83d9ab, 0x5be0cd19⟩

/-- Word by word sum of two states. -/
def State.sum (left right : State) : State :=
  ⟨left.a + right.a, left.b + right.b, left.c + right.c, left.d + right.d, left.e + right.e,
    left.f + right.f, left.g + right.g, left.h + right.h⟩

/-- The bytes of a state. -/
def State.bytes (state : State) : Bytes :=
  [state.a, state.b, state.c, state.d, state.e, state.f, state.g, state.h].flatMap Word.bytes

/-- Turn a word to the right by some bits. -/
def rotate (word count : UInt32) : UInt32 := (word >>> count) ||| (word <<< (32 - count))

/-- The words in some bytes, in order. -/
def wordsOf : Bytes → List UInt32
  | first :: second :: third :: fourth :: rest =>
    Word.ofBytes .bigEndian [first, second, third, fourth] :: wordsOf rest
  | _ => []

/-- Add `count` words to the sixteen of a block, each from four earlier ones. -/
def extend : (count : Nat) → Array UInt32 → Array UInt32
  | 0, words => words
  | count + 1, words =>
    let place := words.size
    let near := words.getD (place - 2) 0
    let far := words.getD (place - 15) 0
    let mixedNear := rotate near 17 ^^^ rotate near 19 ^^^ (near >>> 10)
    let mixedFar := rotate far 7 ^^^ rotate far 18 ^^^ (far >>> 3)
    extend count
      (words.push (mixedNear + words.getD (place - 7) 0 + mixedFar + words.getD (place - 16) 0))

/-- Mix a word and its constant into the state. -/
def round (state : State) (input : UInt32 × UInt32) : State :=
  let (word, constant) := input
  let mixedE := rotate state.e 6 ^^^ rotate state.e 11 ^^^ rotate state.e 25
  let choice := (state.e &&& state.f) ^^^ ((~~~state.e) &&& state.g)
  let first := state.h + mixedE + choice + constant + word
  let mixedA := rotate state.a 2 ^^^ rotate state.a 13 ^^^ rotate state.a 22
  let majority := (state.a &&& state.b) ^^^ (state.a &&& state.c) ^^^ (state.b &&& state.c)
  ⟨first + mixedA + majority, state.a, state.b, state.c, state.d + first, state.e, state.f, state.g⟩

/-- Mix a block of 64 bytes into the state. -/
def compress (state : State) (block : Bytes) : State :=
  let words := extend 48 (wordsOf block).toArray
  state.sum ((words.toList.zip roundConstants.toList).foldl round state)

/-- Mix `count` blocks into the state, one after the other. -/
def compressMany : (count : Nat) → State → Bytes → State
  | 0, state, _ => state
  | count + 1, state, bytes => compressMany count (compress state (bytes.take 64)) (bytes.drop 64)

/-- What is added behind a text of some length, so that it comes in whole blocks. -/
def padding (length : Nat) : Bytes :=
  0x80 :: List.replicate ((119 - length % 64) % 64) 0 ++ Bytes.digits 8 (length * 8)

/-- The digest of a text. -/
def sha256 (text : Bytes) : Bytes :=
  let padded := text ++ padding text.length
  (compressMany (padded.length / 64) .initial padded).bytes

/-- How far a text is mixed while it comes in. -/
structure Progress where
  /-- The state after all whole blocks. -/
  state : State
  /-- What came in behind them. -/
  rest : Bytes
  /-- How many bytes came in. -/
  length : Nat

/-- Mix the blocks that a chunk completes. -/
def Progress.add (progress : Progress) (chunk : Bytes) : Progress :=
  let bytes := progress.rest ++ chunk
  let blocks := bytes.length / 64
  ⟨compressMany blocks progress.state bytes, bytes.drop (64 * blocks),
    progress.length + chunk.length⟩

/-- The digest of what came in. -/
def Progress.finish (progress : Progress) : Bytes :=
  let padded := progress.rest ++ padding progress.length
  (compressMany (padded.length / 64) progress.state padded).bytes

/-- The digest while the text comes in. -/
def hasher : Hasher := ⟨Progress, ⟨.initial, [], 0⟩, Progress.add, Progress.finish⟩

end HfsPlus.Digest
