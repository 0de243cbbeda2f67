import Enclave.Channel
import Enclave.Sealing.KeyRequest

/-!
# Deriving the sealing key

A sealing key is made by the processor, from a request that names a key id.
The key id comes out of a fresh report, which the enclave reads after binding
its own measurement. Nothing else of the report enters the request, so that
the key stays the same as long as the key id does.
-/

namespace Enclave

variable {m n : Type → Type}

/-- **Who derives keys from requests.** Every request yields a key. -/
structure KeyRequester (m : Type → Type) where
  /-- The key for a request. -/
  getKey : KeyRequest → m SealKey

namespace KeyRequester

/-- **The key derivation of an emulated enclave**: half a digest over its
identity and the request. -/
def mockKey (identity : Measurement) (request : KeyRequest) : SealKey :=
  let digest := sha256 (Bytes.ofText "mock-egetkey" ++ identity.toBytes ++ request.toBytes)
  ⟨Bytes.window 16 0 digest.toList⟩

/-- The requester of an emulated enclave. -/
def mock [Pure m] (identity : Measurement) : KeyRequester m where
  getKey request := pure (mockKey identity request)

/-- **A requester that always answers the same key** and keeps the requests it
was given. -/
def fixed (key : SealKey) : KeyRequester (StateM (List KeyRequest)) where
  getKey request := do
    modify (· ++ [request])
    return key

/-- A requester acting in a larger world. -/
def lift (f : {α : Type} → m α → n α) (k : KeyRequester m) : KeyRequester n where
  getKey request := f (k.getKey request)

end KeyRequester

/-- **The sealing key of the enclave behind a channel.** A report read that
brings more or fewer than 432 bytes is an error of the channel. -/
def deriveKey [Monad m] (ch : Channel m) (keys : KeyRequester m) (identity : Measurement) :
    ExceptT Error m SealKey := do
  let raw ← ch.bindAndRead (.ofMeasurement identity) .report 432
  if raw.length = 432 then
    let report ← liftExcept (Report.parse raw)
    keys.getKey (.forReport report)
  else throw (.shortTransfer .read AttestationFile.report.name 432 raw.length)

end Enclave
