import Enclave.Error
import Enclave.Evidence.ReportData

/-!
# Report bodies and reports

A report body is what reports and quotes have in common: 384 bytes that hold
the measurement of the enclave from byte 64 on and its report data from byte
320 on. A report is a body followed by a key id and an authentication code,
432 bytes in all.

`ReportBody.of` writes a body that says nothing but the two fields, and the
accessors read the fields back from where they were put. A report is taken
apart by `Report.parse` and put together by `Report.toBytes`.
-/

namespace Enclave

/-- **A report body.** -/
structure ReportBody where
  /-- All of its bytes. -/
  bytes : Vector UInt8 384
deriving DecidableEq, Repr

namespace ReportBody

/-- The bytes of a body, as a byte string. -/
def toBytes (b : ReportBody) : Bytes := b.bytes.toList

@[simp] theorem length_toBytes (b : ReportBody) : b.toBytes.length = 384 := by
  simp [toBytes]

/-- **The body of an enclave with some report data.** All other fields are
zero. -/
def of (m : Measurement) (d : ReportData) : ReportBody :=
  let before : Vector UInt8 64 := Vector.replicate 64 0
  let between : Vector UInt8 224 := Vector.replicate 224 0
  ⟨before ++ m.bytes ++ between ++ d.bytes⟩

/-- The measurement in a body. -/
def measurement (b : ReportBody) : Measurement := ⟨Bytes.window 32 64 b.toBytes⟩

/-- The report data in a body. -/
def reportData (b : ReportBody) : ReportData := ⟨Bytes.window 64 320 b.toBytes⟩

end ReportBody

/-- **The report of an enclave**, as the hardware hands it out. -/
structure Report where
  /-- What the report states. -/
  body : ReportBody
  /-- The id under which a sealing key is derived. -/
  keyId : Vector UInt8 32
  /-- The authentication code over the body. -/
  mac : Vector UInt8 16
deriving DecidableEq, Repr

namespace Report

/-- **The bytes of a report**: body, key id, authentication code. -/
def toBytes (r : Report) : Bytes :=
  r.body.toBytes ++ r.keyId.toList ++ r.mac.toList

@[simp] theorem length_toBytes (r : Report) : r.toBytes.length = 432 := by
  simp [toBytes]

/-- **The part of `n` bytes that starts at an offset**, which has to end within
the byte string. -/
def part (n start : Nat) (b : Bytes) : Except Error (Vector UInt8 n) :=
  if start + n ≤ b.length then .ok (Bytes.window n start b)
  else .error (.malformedQuote .reportLayout)

theorem part_of_le {n start : Nat} {b : Bytes} (h : start + n ≤ b.length) :
    part n start b = .ok (Bytes.window n start b) :=
  if_pos h

/-- **The report in a byte string** of exactly 432 bytes. -/
def parse (b : Bytes) : Except Error Report :=
  if b.length = 432 then do
    return ⟨⟨← part 384 0 b⟩, ← part 32 384 b, ← part 16 416 b⟩
  else .error (.malformedQuote (.reportSize b.length))

theorem parse_of_length {b : Bytes} (h : b.length = 432) :
    parse b = .ok ⟨⟨Bytes.window 384 0 b⟩, Bytes.window 32 384 b, Bytes.window 16 416 b⟩ := by
  unfold parse
  rw [if_pos h, part_of_le (by omega), part_of_le (by omega), part_of_le (by omega)]
  rfl

theorem parse_of_length_ne {b : Bytes} (h : b.length ≠ 432) :
    parse b = .error (.malformedQuote (.reportSize b.length)) :=
  if_neg h

end Report

end Enclave
