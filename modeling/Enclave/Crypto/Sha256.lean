import Enclave.Data.Bytes

/-!
# SHA-256

The digest that ties data to a quote. Claims and user data enter the report
data as their SHA-256, so two enclaves agree on a message by agreeing on 32
bytes.

The definitions follow the standard. The message is padded to whole blocks of
16 words (`pad`), each block is stretched to 64 words (`schedule`), and the
64 rounds (`round`) fold these words into a state of eight. Widths are in the
types: a block is a vector of 16 words and a digest a vector of 32 bytes, so
no statement about a digest needs a side condition on its length.
-/

namespace Enclave.Sha256

/-- **The chaining value**: eight words, named as in the standard. -/
structure State where
  a : UInt32
  b : UInt32
  c : UInt32
  d : UInt32
  e : UInt32
  f : UInt32
  g : UInt32
  h : UInt32
deriving DecidableEq

/-- **The chaining value before the first block**: the leading bits of the
fractional parts of the square roots of the first eight primes. -/
def initial : State :=
  ⟨0x6a09e667, 0xbb67ae85, 0x3c6ef372, 0xa54ff53a,
   0x510e527f, 0x9b05688c, 0x1f83d9ab, 0x5be0cd19⟩

/-- **The round constants**: the leading bits of the fractional parts of the
cube roots of the first 64 primes. -/
def roundConstants : Vector UInt32 64 := #v[
  0x428a2f98, 0x71374491, 0xb5c0fbcf, 0xe9b5dba5, 0x3956c25b, 0x59f111f1,
  0x923f82a4, 0xab1c5ed5, 0xd807aa98, 0x12835b01, 0x243185be, 0x550c7dc3,
  0x72be5d74, 0x80deb1fe, 0x9bdc06a7, 0xc19bf174, 0xe49b69c1, 0xefbe4786,
  0x0fc19dc6, 0x240ca1cc, 0x2de92c6f, 0x4a7484aa, 0x5cb0a9dc, 0x76f988da,
  0x983e5152, 0xa831c66d, 0xb00327c8, 0xbf597fc7, 0xc6e00bf3, 0xd5a79147,
  0x06ca6351, 0x14292967, 0x27b70a85, 0x2e1b2138, 0x4d2c6dfc, 0x53380d13,
  0x650a7354, 0x766a0abb, 0x81c2c92e, 0x92722c85, 0xa2bfe8a1, 0xa81a664b,
  0xc24b8b70, 0xc76c51a3, 0xd192e819, 0xd6990624, 0xf40e3585, 0x106aa070,
  0x19a4c116, 0x1e376c08, 0x2748774c, 0x34b0bcb5, 0x391c0cb3, 0x4ed8aa4a,
  0x5b9cca4f, 0x682e6ff3, 0x748f82ee, 0x78a5636f, 0x84c87814, 0x8cc70208,
  0x90befffa, 0xa4506ceb, 0xbef9a3f7, 0xc67178f2]

/-- A word rotated to the right. -/
def rotateRight (x : UInt32) (n : UInt32) : UInt32 :=
  (x >>> n) ||| (x <<< (32 - n))

/-- The mixing of the state word `a` in a round. -/
def bigSigma0 (x : UInt32) : UInt32 :=
  rotateRight x 2 ^^^ rotateRight x 13 ^^^ rotateRight x 22

/-- The mixing of the state word `e` in a round. -/
def bigSigma1 (x : UInt32) : UInt32 :=
  rotateRight x 6 ^^^ rotateRight x 11 ^^^ rotateRight x 25

/-- The mixing of the word fifteen places back in the schedule. -/
def smallSigma0 (x : UInt32) : UInt32 :=
  rotateRight x 7 ^^^ rotateRight x 18 ^^^ (x >>> 3)

/-- The mixing of the word two places back in the schedule. -/
def smallSigma1 (x : UInt32) : UInt32 :=
  rotateRight x 17 ^^^ rotateRight x 19 ^^^ (x >>> 10)

/-- Bits of `y` where `x` is set, bits of `z` elsewhere. -/
def choose (x y z : UInt32) : UInt32 :=
  (x &&& y) ^^^ (~~~x &&& z)

/-- The bit that at least two of three words carry. -/
def majority (x y z : UInt32) : UInt32 :=
  (x &&& y) ^^^ (x &&& z) ^^^ (y &&& z)

/-- **The first words of the schedule of a block.** The block comes first;
from the seventeenth word on, each is made of four earlier ones. -/
def schedule (block : Vector UInt32 16) : (n : Nat) → Vector UInt32 n
  | 0 => #v[]
  | n + 1 =>
    let words := schedule block n
    words.push <|
      if h : n < 16 then block[n]
      else words[n - 16] + smallSigma0 words[n - 15] + words[n - 7]
        + smallSigma1 words[n - 2]

/-- **One round**: the constant and the schedule word enter the state. -/
def State.round (s : State) (constant word : UInt32) : State :=
  let t₁ := s.h + bigSigma1 s.e + choose s.e s.f s.g + constant + word
  let t₂ := bigSigma0 s.a + majority s.a s.b s.c
  ⟨t₁ + t₂, s.a, s.b, s.c, s.d + t₁, s.e, s.f, s.g⟩

/-- Word by word addition of two states. -/
def State.add (s t : State) : State :=
  ⟨s.a + t.a, s.b + t.b, s.c + t.c, s.d + t.d,
   s.e + t.e, s.f + t.f, s.g + t.g, s.h + t.h⟩

/-- **A block enters the state**: 64 rounds, whose outcome is added to the
state they started from. -/
def State.absorb (s : State) (block : Vector UInt32 16) : State :=
  let words := schedule block 64
  s.add (Fin.foldl 64 (fun t i => t.round roundConstants[i] words[i]) s)

/-- **The padding**: a one bit, zeros up to eight bytes before the end of a
block, and the length of the message in bits. -/
def pad (message : Bytes) : Bytes :=
  let size := message.length
  message ++ 0x80 :: List.replicate ((119 - size % 64) % 64) 0
    ++ (Bytes.littleEndian 8 (8 * size)).reverse

/-- Four bytes to a word, most significant byte first. -/
def words : Bytes → List UInt32
  | b₀ :: b₁ :: b₂ :: b₃ :: rest =>
    (b₀.toUInt32 <<< 24 ||| b₁.toUInt32 <<< 16 ||| b₂.toUInt32 <<< 8 ||| b₃.toUInt32)
      :: words rest
  | _ => []

/-- Sixteen words to a block, in order. -/
def State.absorbAll (s : State) : List UInt32 → State
  | [] => s
  | w :: rest =>
    let block := Vector.ofFn fun i : Fin 16 => (w :: rest.take 15).getD i 0
    State.absorbAll (s.absorb block) (rest.drop 15)
termination_by ws => ws.length

/-- The word of the state at a position. -/
def State.word (s : State) : Nat → UInt32
  | 0 => s.a
  | 1 => s.b
  | 2 => s.c
  | 3 => s.d
  | 4 => s.e
  | 5 => s.f
  | 6 => s.g
  | _ => s.h

/-- The state as bytes, most significant byte of each word first. -/
def State.toBytes (s : State) : Vector UInt8 32 :=
  Vector.ofFn fun i => (s.word (i / 4) >>> UInt32.ofNat (24 - 8 * (i % 4))).toUInt8

end Sha256

/-- **The SHA-256 digest** of a message. -/
def sha256 (message : Bytes) : Vector UInt8 32 :=
  (Sha256.initial.absorbAll (Sha256.words (Sha256.pad message))).toBytes

end Enclave
