import Enclave.Evidence.Quote
import Enclave.Proofs.Fields

/-!
# What stands in a quote

A quote is read at fixed places of a byte string. Here these places are given
as ranges of positions in the whole string, and what the accessors of a quote
return is said to be what stands there: the version in the first two bytes,
the measurement at 112 to 144, the report data at 368 to 432. A byte string
can be read as a quote exactly when its length is that of one.
-/

namespace Enclave

namespace Quote

/-- A byte string that has the size of a quote. -/
def Sized (b : Bytes) : Prop := 432 ≤ b.length ∧ b.length ≤ 8192

/-- The number in the first two bytes. -/
def versionIn (b : Bytes) : Nat := Bytes.ofLittleEndian (b.slice 0 2)

/-- A byte string that states a supported version. -/
def Supported (b : Bytes) : Prop := versionIn b = 2 ∨ versionIn b = 3

/-- **A byte string that binds user data**: in the place of the report data
stands the digest, followed by 32 zeros. -/
def Binds (b userData : Bytes) : Prop :=
  b.slice 368 432 = (sha256 userData).toList ++ List.replicate 32 0

/-- What is wrong with a byte string that does not have the size of a
quote. -/
def sizeFault (b : Bytes) : EvidenceFault :=
  if b.length < 432 then .tooShort b.length else .tooLong b.length

theorem parse_of_sized {b : Bytes} (h : Sized b) : parse b = .ok ⟨b, h.1, h.2⟩ := by
  unfold parse
  rw [dif_neg (Nat.not_lt.mpr h.1), dif_neg (Nat.not_lt.mpr h.2)]

theorem parse_of_not_sized {b : Bytes} (h : ¬ Sized b) :
    parse b = .error (.malformedQuote (sizeFault b)) := by
  unfold parse sizeFault
  by_cases short : b.length < 432
  · rw [dif_pos short, if_pos short]
  · have long : 8192 < b.length := by
      unfold Sized at h
      omega
    rw [dif_neg short, dif_pos long, if_neg short]

/-- The version that is read is the number in the first two bytes. -/
theorem toNat_version (q : Quote) : q.version.toNat = versionIn q.bytes := by
  have hlt : Bytes.ofLittleEndian (q.bytes.take 2) < 256 ^ 2 := by
    have h := Bytes.ofLittleEndian_lt (q.bytes.take 2)
    have hlen : (q.bytes.take 2).length = 2 := by
      have := q.minSize
      rw [List.length_take]
      omega
    rwa [hlen] at h
  unfold version versionIn
  rw [Bytes.slice_zero, UInt16.toNat_ofNat']
  exact Nat.mod_eq_of_lt hlt

theorem isSupportedVersion_iff (q : Quote) :
    isSupportedVersion q.version = true ↔ Supported q.bytes := by
  unfold isSupportedVersion Supported
  rw [Bool.or_eq_true, decide_eq_true_iff, decide_eq_true_iff, ← toNat_version,
    ← UInt16.toNat_inj, ← UInt16.toNat_inj]
  rfl

/-- The body of a quote is the range behind its header. -/
theorem toBytes_body (q : Quote) : q.body.toBytes = q.bytes.slice 48 432 :=
  Bytes.toList_window (by have := q.minSize; omega)

/-- **The measurement of a quote** is what stands at bytes 112 to 144. -/
theorem toBytes_measurement (q : Quote) : q.measurement.toBytes = q.bytes.slice 112 144 := by
  show (Bytes.window 32 64 q.body.toBytes).toList = _
  rw [Bytes.toList_window (by simp), toBytes_body, Bytes.slice_slice _ (by decide)]

/-- **The report data of a quote** is what stands at bytes 368 to 432. -/
theorem toBytes_reportData (q : Quote) : q.reportData.toBytes = q.bytes.slice 368 432 := by
  show (Bytes.window 64 320 q.body.toBytes).toList = _
  rw [Bytes.toList_window (by simp), toBytes_body, Bytes.slice_slice _ (by decide)]

end Quote

/-- A measurement is told apart by its bytes. -/
theorem Measurement.toBytes_inj {m n : Measurement} : m.toBytes = n.toBytes ↔ m = n := by
  constructor
  · intro h
    cases m
    cases n
    exact congrArg Measurement.mk (Vector.toList_inj.mp h)
  · exact congrArg _

/-- Report data is told apart by its bytes. -/
theorem ReportData.toBytes_inj {d e : ReportData} : d.toBytes = e.toBytes ↔ d = e := by
  constructor
  · intro h
    cases d
    cases e
    exact congrArg ReportData.mk (Vector.toList_inj.mp h)
  · exact congrArg _

theorem ReportData.toBytes_ofClaims (claims : Bytes) :
    (ReportData.ofClaims claims).toBytes = (sha256 claims).toList ++ List.replicate 32 0 :=
  Vector.toList_append

theorem Quote.reportData_eq_ofClaims_iff (q : Quote) (userData : Bytes) :
    q.reportData = .ofClaims userData ↔ Binds q.bytes userData := by
  rw [← ReportData.toBytes_inj, Quote.toBytes_reportData, ReportData.toBytes_ofClaims]
  exact Iff.rfl

end Enclave
