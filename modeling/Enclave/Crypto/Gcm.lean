import Enclave.Crypto.BinaryField

/-!
# Authenticated encryption

AES-128 in Galois/counter mode, with nonces of 16 bytes and no associated
data. The ciphertext is the plaintext with a keystream added to it, and the
tag is a polynomial in the blocks of the ciphertext, evaluated at the hash
key and masked with the cipher's value at the initial counter.

The keystream depends on the key and the nonce alone (`keystream`), and the
tag on the key, the nonce and the ciphertext alone (`tag`). Deciphering adds
the same keystream once more, after the tag was found to be the right one.
-/

namespace Enclave.Gcm

/-- **The blocks of a byte string**, the last one filled up with zeros. -/
def blocks : Bytes → List Block
  | [] => []
  | b :: rest => Bytes.window 16 0 (b :: rest.take 15) :: blocks (rest.drop 15)
termination_by b => b.length

/-- **The polynomial hash of a list of blocks** at a point, by Horner's scheme.
The multiples of the point are listed once for all blocks. -/
def hash (point : FieldElement) (bs : List Block) : FieldElement :=
  let multiples := point.multiples 128
  bs.foldl (fun acc b => (acc ^^^ FieldElement.ofBlock b).combine 0 multiples) 0

theorem hash_eq_foldl_mul (point : FieldElement) (bs : List Block) :
    hash point bs = bs.foldl (fun acc b => (acc ^^^ FieldElement.ofBlock b).mul point) 0 :=
  rfl

/-- The block that closes a hash: 64 zero bits, and a length in bits. -/
def lengthBlock (bytes : Nat) : Block :=
  FieldElement.toBlock (BitVec.ofNat 128 (8 * bytes % UInt64.size))

/-- **A key made ready for use**: its round keys, and the hash key, which is
the cipher's value at the block of zeros. -/
structure Schedule where
  /-- The round keys of the cipher. -/
  roundKeys : List Block
  /-- The point at which blocks are hashed. -/
  hashKey : FieldElement

/-- The schedule of a key. -/
def Schedule.ofKey (key : Block) : Schedule :=
  let roundKeys := Aes.roundKeys key
  ⟨roundKeys, FieldElement.ofBlock (Aes.encrypt roundKeys Block.zero)⟩

/-- The cipher of a schedule, on a counter. -/
def Schedule.cipher (s : Schedule) (counter : FieldElement) : Block :=
  Aes.encrypt s.roundKeys counter.toBlock

/-- **The initial counter of a nonce.** A nonce of 16 bytes is hashed, since
only one of 12 bytes would leave room for a counter. -/
def initialCounter (s : Schedule) (nonce : Block) : FieldElement :=
  hash s.hashKey [nonce, lengthBlock 16]

/-- **The counter advanced by a number of steps.** Its last 32 bits count and
wrap around; the others stay. -/
def advance (counter : FieldElement) (n : Nat) : FieldElement :=
  counter.extractLsb' 32 96 ++ (counter.extractLsb' 0 32 + BitVec.ofNat 32 n)

/-- **The keystream**, long enough for a text of the given length. -/
def keystream (s : Schedule) (nonce : Block) (length : Nat) : Bytes :=
  let start := initialCounter s nonce
  (List.range ((length + 15) / 16)).flatMap fun i =>
    (s.cipher (advance start (i + 1))).toList

/-- **A text with the keystream added.** The same map enciphers and deciphers. -/
def crypt (s : Schedule) (nonce : Block) (text : Bytes) : Bytes :=
  List.zipWith (· ^^^ ·) text (keystream s nonce text.length)

/-- **The authentication tag of a ciphertext.** -/
def tag (s : Schedule) (nonce : Block) (ciphertext : Bytes) : Block :=
  let digest := hash s.hashKey (blocks ciphertext ++ [lengthBlock ciphertext.length])
  Block.add digest.toBlock (s.cipher (initialCounter s nonce))

/-- **Authenticated encryption**: the ciphertext and its tag. -/
def encrypt (key nonce : Block) (plaintext : Bytes) : Bytes × Block :=
  let s := Schedule.ofKey key
  let ciphertext := crypt s nonce plaintext
  (ciphertext, tag s nonce ciphertext)

/-- **Authenticated decryption**: the plaintext, if the tag is the one of the
ciphertext. -/
def decrypt (key nonce : Block) (mac : Block) (ciphertext : Bytes) : Option Bytes :=
  let s := Schedule.ofKey key
  if tag s nonce ciphertext = mac then some (crypt s nonce ciphertext) else none

end Enclave.Gcm
