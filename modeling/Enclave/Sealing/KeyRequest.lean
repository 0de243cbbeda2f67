import Enclave.Crypto.Aes
import Enclave.Evidence.Report

/-!
# Key requests

A sealing key is derived by the processor from a request that says what the
key is to depend on. The request for a sealing key asks for the sealing class,
tied to the measurement of the enclave, under the key id of a fresh report;
security versions are zero and the masks let through all that may be masked.
-/

namespace Enclave

/-- **A sealing key**: 128 bits, used for one call. -/
structure SealKey where
  /-- The bytes of the key. -/
  bytes : Block
deriving DecidableEq, Repr

/-- How a key is shown to a developer: not at all. -/
def SealKey.describe (_ : SealKey) : String := "SealKey(..)"

/-- **What a derived key depends on.** -/
structure KeyRequest where
  /-- The class of the key. -/
  keyName : UInt16
  /-- The identity the key is tied to. -/
  keyPolicy : UInt16
  /-- The security version of the enclave. -/
  isvSvn : UInt16
  /-- The security version of the processor. -/
  cpuSvn : Vector UInt8 16
  /-- The mask for the attribute flags. -/
  flags : UInt64
  /-- The mask for the extended features. -/
  xfrm : UInt64
  /-- The id of the key. -/
  keyId : Vector UInt8 32
  /-- The mask for the miscellaneous features. -/
  miscMask : UInt32
  /-- The security version of the configuration. -/
  configSvn : UInt16
deriving DecidableEq, Repr

namespace KeyRequest

/-- The class of sealing keys. -/
def sealClass : UInt16 := 4

/-- The policy that ties a key to the measurement. -/
def measurementPolicy : UInt16 := 1

/-- The mask that lets through every attribute flag. -/
def allFlags : UInt64 := 0xffffffffffffffff

/-- The mask that lets through every extended feature that may be masked. -/
def allFeatures : UInt64 := 0xfffffffffff9ff1b

/-- The mask that lets through every miscellaneous feature. -/
def allMisc : UInt32 := 0xffffffff

/-- **The request for the sealing key of the enclave a report comes from.** -/
def forReport (r : Report) : KeyRequest where
  keyName := sealClass
  keyPolicy := measurementPolicy
  isvSvn := 0
  cpuSvn := Vector.replicate 16 0
  flags := allFlags
  xfrm := allFeatures
  keyId := r.keyId
  miscMask := allMisc
  configSvn := 0

/-- **The bytes of a request**: its fields at fixed places, numbers least
significant byte first, two reserved bytes after the third field, and zeros up
to 512 bytes. -/
def toBytes (r : KeyRequest) : Bytes :=
  Bytes.littleEndian 2 r.keyName.toNat
    ++ Bytes.littleEndian 2 r.keyPolicy.toNat
    ++ Bytes.littleEndian 2 r.isvSvn.toNat
    ++ List.replicate 2 0
    ++ r.cpuSvn.toList
    ++ Bytes.littleEndian 8 r.flags.toNat
    ++ Bytes.littleEndian 8 r.xfrm.toNat
    ++ r.keyId.toList
    ++ Bytes.littleEndian 4 r.miscMask.toNat
    ++ Bytes.littleEndian 2 r.configSvn.toNat
    ++ List.replicate 434 0

@[simp] theorem length_toBytes (r : KeyRequest) : r.toBytes.length = 512 := by
  simp only [toBytes, List.length_append, Bytes.length_littleEndian, List.length_replicate,
    Vector.length_toList]

end KeyRequest

end Enclave
