import Enclave.Evidence.Report

/-!
# Quotes

A quote is a report body behind a header of 48 bytes, which opens with a
version, and in front of a signature of any length. It is at most 8192 bytes
long. What a quote says is read at fixed places; whether it is to be trusted
is for a remote verifier, which is given all of its bytes.
-/

namespace Enclave

/-- **A byte string that can be read as a quote.** -/
structure Quote where
  /-- All of its bytes, the signature included. -/
  bytes : Bytes
  /-- It holds a header and a body. -/
  minSize : 432 ≤ bytes.length
  /-- It is no larger than a quote may be. -/
  maxSize : bytes.length ≤ 8192

namespace Quote

/-- The most bytes that are read as a quote. -/
def maxBytes : Nat := 8192

/-- **The quote in a byte string.** Only the length is looked at. -/
def parse (b : Bytes) : Except Error Quote :=
  if short : b.length < 432 then .error (.malformedQuote (.tooShort b.length))
  else if long : 8192 < b.length then .error (.malformedQuote (.tooLong b.length))
  else .ok ⟨b, by omega, by omega⟩

/-- The version in the header. -/
def version (q : Quote) : UInt16 := UInt16.ofNat (Bytes.ofLittleEndian (q.bytes.take 2))

/-- The report body behind the header. -/
def body (q : Quote) : ReportBody := ⟨Bytes.window 384 48 q.bytes⟩

/-- The measurement the quote states. -/
def measurement (q : Quote) : Measurement := q.body.measurement

/-- The report data the quote binds. -/
def reportData (q : Quote) : ReportData := q.body.reportData

/-- **A supported version**: 2, with an enhanced privacy id, or 3, with data
centre attestation. -/
def isSupportedVersion (version : UInt16) : Bool :=
  version = 2 || version = 3

/-- **The bytes of a quote without signature**: a header that holds only the
version, the body, and the length of an empty signature. -/
def unsigned (version : UInt16) (body : ReportBody) : Bytes :=
  Bytes.littleEndian 2 version.toNat ++ List.replicate 46 0 ++ body.toBytes
    ++ List.replicate 4 0

@[simp] theorem length_unsigned (version : UInt16) (body : ReportBody) :
    (unsigned version body).length = 436 := by
  simp [unsigned]

end Quote

end Enclave
