import Enclave.Crypto.Gcm
import Enclave.Sealing.Blob
import Enclave.Sealing.Key

/-!
# Sealing

Data is sealed to an enclave by encrypting it under a key that only this
enclave can derive. Sealing and unsealing first check everything that can be
checked without the key, so that neither a payload over the limit nor a blob
with a broken layout ever reaches the enclave's hardware; then the key is
derived anew, used once and forgotten.

What happens under a key is pure: `Blob.encrypt` makes the blob of a plaintext
and `Blob.decrypt` undoes it.
-/

namespace Enclave

namespace Blob

/-- The nonce a blob was encrypted with: its own, or else the key. -/
def effectiveNonce (key : SealKey) (nonce : Option Block) : Block :=
  nonce.getD key.bytes

/-- **The blob of a plaintext** under a key. -/
def encrypt (key : SealKey) (nonce : Option Block) (plaintext : Bytes) : Blob :=
  let (ciphertext, tag) := Gcm.encrypt key.bytes (effectiveNonce key nonce) plaintext
  ⟨nonce, tag, ciphertext⟩

/-- **The plaintext of a blob** under a key, if its tag fits. -/
def decrypt (key : SealKey) (b : Blob) : Option Bytes :=
  Gcm.decrypt key.bytes (effectiveNonce key b.nonce) b.tag b.ciphertext

end Blob

/-- **Who seals and unseals for an enclave.** -/
structure Sealer (m : Type → Type) where
  /-- The attestation files of the enclave. -/
  channel : Channel m
  /-- The key derivation of the enclave. -/
  requester : KeyRequester m
  /-- Where fresh nonces come from. -/
  freshNonce : m Block
  /-- The measurement that keys are scoped to. -/
  measurement : Measurement
  /-- The largest plaintext that is accepted. -/
  maxPayload : Nat

namespace Sealer

variable {m : Type → Type}

/-- The limit for a plaintext unless another is set: 16 MiB. -/
def defaultMaxPayload : Nat := 16 * 1024 * 1024

/-- **Whether a payload may be sealed**: within the limit, and within what the
length field can say. -/
def checkCapacity (limit size : Nat) : Except Error Unit :=
  if limit < size then .error (.payloadTooLarge size limit)
  else if Blob.maxLength < size then .error (.payloadTooLarge size Blob.maxLength)
  else .ok ()

/-- The key of the enclave. -/
def key [Monad m] (s : Sealer m) : ExceptT Error m SealKey :=
  deriveKey s.channel s.requester s.measurement

/-- **Sealing** a plaintext into a layout. -/
def sealAs [Monad m] (s : Sealer m) (layout : Layout) (plaintext : Bytes) :
    ExceptT Error m Bytes := do
  liftExcept (checkCapacity s.maxPayload plaintext.length)
  let key ← s.key
  match layout with
  | .legacy => return (Blob.encrypt key none plaintext).toBytes
  | .nonced =>
    let nonce ← s.freshNonce
    return (Blob.encrypt key (some nonce) plaintext).toBytes

/-- The blob in sealed data, or the error that says why there is none. -/
def parseSealed (layout : Layout) (data : Bytes) : Except Error Blob :=
  (Blob.parse layout data).mapError .malformedBlob

/-- **Unsealing** data that is in a layout. -/
def unsealAs [Monad m] (s : Sealer m) (layout : Layout) (data : Bytes) :
    ExceptT Error m Bytes := do
  let blob ← liftExcept (parseSealed layout data)
  liftExcept (checkCapacity s.maxPayload blob.ciphertext.length)
  let key ← s.key
  match blob.decrypt key with
  | some plaintext => return plaintext
  | none => throw .authenticationFailure

end Sealer

end Enclave
