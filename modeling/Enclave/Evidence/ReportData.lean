import Enclave.Crypto.Sha256
import Enclave.Measurement

/-!
# Report data

The one field of a report or quote whose content the enclave chooses. What is
put there is bound to the attestation: the digest of some claims, or the
enclave's own measurement ahead of a key request. Either takes up the first 32
bytes and the rest is zero.
-/

namespace Enclave

/-- **The 64 bytes an enclave binds into its evidence.** -/
structure ReportData where
  /-- The content of the field. -/
  bytes : Vector UInt8 64
deriving DecidableEq, Repr

namespace ReportData

/-- Report data that binds nothing. -/
def zero : ReportData := ⟨Vector.replicate 64 0⟩

/-- Report data with 32 chosen bytes in front and zeros behind. -/
def ofDigest (d : Vector UInt8 32) : ReportData := ⟨d ++ (Vector.replicate 32 0 : Vector UInt8 32)⟩

/-- **The binding of claims**: their SHA-256. -/
def ofClaims (claims : Bytes) : ReportData := ofDigest (sha256 claims)

/-- **The binding of a key request**: the measurement the key is for. -/
def ofMeasurement (m : Measurement) : ReportData := ofDigest m.bytes

/-- The bytes of the field, as a byte string. -/
def toBytes (d : ReportData) : Bytes := d.bytes.toList

@[simp] theorem length_toBytes (d : ReportData) : d.toBytes.length = 64 := by
  simp [toBytes]

/-- The report data made of exactly 64 bytes, if there are as many. -/
def ofBytes? (b : Bytes) : Option ReportData :=
  if b.length = 64 then some ⟨Bytes.window 64 0 b⟩ else none

/-- How report data is shown to a developer. -/
def describe (d : ReportData) : String := "ReportData(" ++ Hex.encode d.toBytes ++ ")"

end ReportData

end Enclave
