import Enclave.Data.Hex

/-!
# Measurements

The measurement of an enclave is the digest of the code that runs in it, and
is all the identity it has: quotes state it, and sealing keys are scoped to
it. As text it is written in hexadecimal.
-/

namespace Enclave

/-- **The identity digest of an enclave.** -/
structure Measurement where
  /-- The 32 bytes of the digest. -/
  bytes : Vector UInt8 32
deriving DecidableEq, Repr

namespace Measurement

/-- The measurement of no code at all: zeros. -/
def zero : Measurement := ⟨Vector.replicate 32 0⟩

/-- The bytes of a measurement, as a byte string. -/
def toBytes (m : Measurement) : Bytes := m.bytes.toList

@[simp] theorem length_toBytes (m : Measurement) : m.toBytes.length = 32 := by
  simp [toBytes]

/-- **The measurement as text**: 64 hexadecimal digits. -/
def toText (m : Measurement) : String := Hex.encode m.toBytes

/-- **The measurement a text stands for.** -/
def ofText (s : String) : Except HexError Measurement :=
  Measurement.mk <$> Hex.decodeField 32 s

/-- The measurement made of exactly 32 bytes, if there are as many. -/
def ofBytes? (b : Bytes) : Option Measurement :=
  if b.length = 32 then some ⟨Bytes.window 32 0 b⟩ else none

/-- How a measurement is shown to a developer. -/
def describe (m : Measurement) : String := "Measurement(" ++ m.toText ++ ")"

end Measurement

end Enclave
