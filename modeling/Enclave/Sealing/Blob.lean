import Enclave.Crypto.Aes
import Enclave.Error

/-!
# Sealed blobs

How sealed data is laid out. A blob opens with the length of the ciphertext in
four bytes, then come the authentication tag and the ciphertext; in the newer
layout the nonce stands between length and tag. Nothing in a blob says which
layout it has.

Reading a blob demands that the fields fit and that the ciphertext is exactly
as long as the length field says, so that every byte of an accepted blob is
accounted for.
-/

namespace Enclave

/-- **The layouts of sealed data.** -/
inductive Layout where
  /-- Without a nonce in the blob; the key serves as nonce. -/
  | legacy
  /-- With a nonce of its own in every blob. -/
  | nonced
deriving DecidableEq, Repr

/-- The number of bytes in front of the ciphertext. -/
def Layout.headerSize : Layout → Nat
  | legacy => 20
  | nonced => 36

/-- **The parts of a sealed blob.** -/
structure Blob where
  /-- The nonce, in the layout that carries one. -/
  nonce : Option Block
  /-- The authentication tag of the ciphertext. -/
  tag : Block
  /-- The ciphertext, as long as the plaintext. -/
  ciphertext : Bytes
deriving DecidableEq, Repr

namespace Blob

/-- The largest length that fits the length field. -/
def maxLength : Nat := 4294967295

/-- **The bytes of a blob.** -/
def toBytes (b : Blob) : Bytes :=
  Bytes.littleEndian 4 b.ciphertext.length
    ++ (match b.nonce with | some n => n.toList | none => [])
    ++ b.tag.toList ++ b.ciphertext

/-- Refuses a byte string whose size says that it ends before a field does. -/
def require (size fieldEnd : Nat) : Except BlobFault Unit :=
  if size < fieldEnd then .error (.truncated fieldEnd size) else .ok ()

/-- **The blob in a byte string**, read in a given layout. The first field that
does not fit is reported; when all fit, there may still be bytes left over. -/
def parse (layout : Layout) (b : Bytes) : Except BlobFault Blob := do
  let size := b.length
  require size 4
  let length := Bytes.ofLittleEndian (b.take 4)
  if layout = .nonced then require size 20
  require size layout.headerSize
  require size (layout.headerSize + length)
  let ciphertext := b.drop layout.headerSize
  if ciphertext.length ≠ length then throw (.wrongLength length ciphertext.length)
  return {
    nonce := if layout = .nonced then some (Bytes.window 16 4 b) else none
    tag := Bytes.window 16 (layout.headerSize - 16) b
    ciphertext }

end Blob

end Enclave
