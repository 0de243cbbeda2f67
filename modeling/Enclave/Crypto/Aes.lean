import Enclave.Data.Bytes

/-!
# AES-128

The block cipher under the sealing key. A block is a vector of 16 bytes, read
as four columns of four, and a round is a composition of four steps, each of
which can be undone: `substitute` replaces bytes by a permutation of the 256
byte values, `shiftRows` permutes the positions of a block, `mixColumns` is an
invertible linear map on each column, and `addKey` is its own inverse. Hence
`encrypt` is a permutation of blocks for every key.

The steps are written position by position, so that what a byte of the result
depends on can be read off the definition.
-/

namespace Enclave

/-- **A block**: 16 bytes, column by column. -/
abbrev Block := Vector UInt8 16

namespace Block

/-- The block of zeros. -/
def zero : Block := Vector.replicate 16 0

/-- Byte by byte exclusive or. -/
def add (a b : Block) : Block :=
  Vector.zipWith (· ^^^ ·) a b

end Block

namespace Aes

/-- **Doubling in the field of 256 elements**: a shift, reduced by the field
polynomial when a bit falls out. -/
def double (b : UInt8) : UInt8 :=
  if 0x80 ≤ b then (b <<< 1) ^^^ 0x1b else b <<< 1

/-- The product in the field of 256 elements, by Horner's scheme over the bits
of the second factor. -/
def multiply (a b : UInt8) : UInt8 :=
  (List.range 8).foldr
    (fun i acc => double acc ^^^ (if b.toBitVec.getLsbD i then a else 0)) 0

/-- **The inverse in the field of 256 elements**, with zero for zero: the power
254, as the product of the seven repeated squares. -/
def inverse (b : UInt8) : UInt8 :=
  let square := multiply b b
  let (_, power) := (List.range 6).foldl
    (fun (s, p) _ => let s' := multiply s s; (s', multiply p s')) (square, square)
  power

/-- A byte rotated to the left. -/
def rotateLeft (b : UInt8) (n : UInt8) : UInt8 :=
  (b <<< n) ||| (b >>> (8 - n))

/-- The affine map that follows the inversion. -/
def affine (b : UInt8) : UInt8 :=
  b ^^^ rotateLeft b 1 ^^^ rotateLeft b 2 ^^^ rotateLeft b 3 ^^^ rotateLeft b 4 ^^^ 0x63

/-- **The substitution of a byte**: inversion, then the affine map. The values
are tabulated once. -/
def substitution : Vector UInt8 256 :=
  Vector.ofFn fun i => affine (inverse (UInt8.ofNat i))

/-- The image of a byte under the substitution. -/
def substituteByte (b : UInt8) : UInt8 :=
  have := b.toNat_lt
  substitution[b.toNat]

theorem substituteByte_eq (b : UInt8) : substituteByte b = affine (inverse b) := by
  simp [substituteByte, substitution]

/-- **Every byte of a block substituted.** -/
def substitute (s : Block) : Block :=
  s.map substituteByte

/-- **Row `r` of a block rotated by `r` columns.** Position `i` is row `i % 4`
of column `i / 4`. -/
def shiftRows (s : Block) : Block :=
  Vector.ofFn fun i => s[(i.val + 4 * (i.val % 4)) % 16]

/-- The byte of a column that is `k` rows below position `i`, wrapping around
within the column. -/
def below (s : Block) (i : Fin 16) (k : Nat) : UInt8 :=
  s[4 * (i.val / 4) + (i.val % 4 + k) % 4]

/-- **Every column multiplied by the fixed matrix**: twice the byte itself,
three times the next, and the two others once. -/
def mixColumns (s : Block) : Block :=
  Vector.ofFn fun i =>
    double (below s i 0) ^^^ (double (below s i 1) ^^^ below s i 1)
      ^^^ below s i 2 ^^^ below s i 3

/-- **The round key after a given one.** Its first column is the old one
mixed with the substituted last column and the round constant; every other
column is the old one mixed with the column before it. -/
def nextKey (constant : UInt8) (k : Block) : Block :=
  Vector.ofFn fun i =>
    let row := i.val % 4
    let seed := substituteByte k[12 + (row + 1) % 4] ^^^ (if row = 0 then constant else 0)
    (List.range (i.val / 4 + 1)).foldl (fun acc c => acc ^^^ k.toList.getD (4 * c + row) 0) seed

/-- The round constants: successive doublings of one. -/
def roundConstants : List UInt8 :=
  [0x01, 0x02, 0x04, 0x08, 0x10, 0x20, 0x40, 0x80, 0x1b, 0x36]

/-- The round keys from one on, one more for every constant. -/
def roundKeysFrom (k : Block) : List UInt8 → List Block
  | [] => [k]
  | c :: rest => k :: roundKeysFrom (nextKey c k) rest

/-- **The round keys of a key**: the key itself and ten more. -/
def roundKeys (key : Block) : List Block :=
  roundKeysFrom key roundConstants

/-- **The rounds**, one for every round key. The last one leaves out the
mixing of the columns. -/
def rounds (s : Block) : List Block → Block
  | [] => s
  | [last] => (shiftRows (substitute s)).add last
  | k :: rest => rounds ((mixColumns (shiftRows (substitute s))).add k) rest

/-- **A block enciphered under expanded round keys.** -/
def encrypt : List Block → Block → Block
  | [], s => s
  | k :: rest, s => rounds (s.add k) rest

end Aes

end Enclave
