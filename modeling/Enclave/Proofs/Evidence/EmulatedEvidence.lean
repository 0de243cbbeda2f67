import Enclave.Channel.Mock
import Enclave.Proofs.Evidence.QuoteFields

/-!
# What emulated evidence states

An emulated enclave renders its reports and quotes anew for every read. Here
the bytes it renders are read at the places where a verifier looks: a quote has
the size of one, states the version and the measurement of its enclave, and
binds the report data held at that moment, and so does a report, 48 bytes
further to the front.

`AttestationFile.Embeds` is what a reader wants to know of the bytes it got:
which report data they carry. All that an emulated enclave renders embeds what
it holds (`MockEnclave.embeds_render`).
-/

namespace Enclave

/-- The bytes of a body with two fields: zeros, the measurement, zeros, the
report data. -/
theorem ReportBody.toBytes_of (m : Measurement) (d : ReportData) :
    (ReportBody.of m d).toBytes
      = List.replicate 64 0 ++ m.toBytes ++ List.replicate 224 0 ++ d.toBytes := by
  unfold toBytes of Measurement.toBytes ReportData.toBytes
  simp only [Vector.toList_append, Vector.toList_replicate]

namespace Quote

variable (v : UInt16) (m : Measurement) (d : ReportData)

/-- A quote without signature has the size of a quote. -/
theorem sized_unsigned (body : ReportBody) : Sized (unsigned v body) := by
  unfold Sized
  rw [length_unsigned]
  decide

/-- **The version of a quote without signature** is the one it was made with. -/
theorem versionIn_unsigned (body : ReportBody) : versionIn (unsigned v body) = v.toNat := by
  unfold versionIn unsigned
  rw [Bytes.slice_zero, List.append_assoc, List.append_assoc,
    List.take_left' (Bytes.length_littleEndian 2 v.toNat),
    Bytes.ofLittleEndian_littleEndian_of_lt v.toNat_lt]

/-- **The measurement of a quote without signature** stands where it is read. -/
theorem slice_unsigned_measurement :
    (unsigned v (.of m d)).slice 112 144 = m.toBytes := by
  have h := Bytes.slice_append
    (Bytes.littleEndian 2 v.toNat ++ List.replicate 46 0 ++ List.replicate 64 0) m.toBytes
    (List.replicate 224 0 ++ d.toBytes ++ List.replicate 4 0)
  unfold unsigned
  rw [ReportBody.toBytes_of]
  simpa only [List.length_append, Bytes.length_littleEndian, List.length_replicate,
    Measurement.length_toBytes, List.append_assoc] using h

/-- **The report data of a quote without signature** stands where it is read. -/
theorem slice_unsigned_reportData :
    (unsigned v (.of m d)).slice 368 432 = d.toBytes := by
  have h := Bytes.slice_append
    (Bytes.littleEndian 2 v.toNat ++ List.replicate 46 0
      ++ (List.replicate 64 0 ++ m.toBytes ++ List.replicate 224 0))
    d.toBytes (List.replicate 4 0)
  unfold unsigned
  rw [ReportBody.toBytes_of]
  simpa only [List.length_append, Bytes.length_littleEndian, List.length_replicate,
    Measurement.length_toBytes, ReportData.length_toBytes, List.append_assoc] using h

end Quote

/-- **The report data of a report** stands 48 bytes before its place in a
quote. -/
theorem Report.slice_reportData (m : Measurement) (d : ReportData) (keyId : Vector UInt8 32)
    (mac : Vector UInt8 16) :
    (Report.toBytes ⟨.of m d, keyId, mac⟩).slice 320 384 = d.toBytes := by
  have h := Bytes.slice_append (List.replicate 64 0 ++ m.toBytes ++ List.replicate 224 0)
    d.toBytes (keyId.toList ++ mac.toList)
  unfold toBytes
  rw [ReportBody.toBytes_of]
  simpa only [List.length_append, List.length_replicate, Measurement.length_toBytes,
    ReportData.length_toBytes, List.append_assoc] using h

/-- **Bytes from an attestation file carry report data**, at the place that
belongs to the file. -/
def AttestationFile.Embeds (data : ReportData) (b : Bytes) : AttestationFile → Prop
  | .userReportData => b = data.toBytes
  | .report => b.slice 320 384 = data.toBytes
  | .quote => b.slice 368 432 = data.toBytes

namespace MockEnclave

variable (e : MockEnclave) (data : ReportData)

/-- **All that an emulated enclave renders embeds what it holds.** -/
theorem embeds_render (file : AttestationFile) : file.Embeds data (e.render data file) := by
  cases file with
  | userReportData => rfl
  | report => exact Report.slice_reportData e.measurement data _ _
  | quote => exact Quote.slice_unsigned_reportData e.quoteVersion e.measurement data

/-- No file of an emulated enclave is larger than the largest quote. -/
theorem length_render_le (file : AttestationFile) :
    (e.render data file).length ≤ Quote.maxBytes := by
  cases file with
  | userReportData =>
    show data.toBytes.length ≤ 8192
    rw [ReportData.length_toBytes]
    decide
  | report =>
    show (e.report data).toBytes.length ≤ 8192
    rw [Report.length_toBytes]
    decide
  | quote =>
    show (Quote.unsigned _ _).length ≤ 8192
    rw [Quote.length_unsigned]
    decide

/-- An emulated quote over a digest binds user data exactly if they have that
digest. -/
theorem binds_quote_iff (claims userData : Bytes) :
    Quote.Binds (e.quote (.ofClaims claims)) userData ↔ sha256 userData = sha256 claims := by
  unfold Quote.Binds
  rw [show e.quote (.ofClaims claims) = Quote.unsigned _ _ from rfl,
    Quote.slice_unsigned_reportData, ReportData.toBytes_ofClaims, List.append_left_inj,
    Vector.toList_inj, eq_comm]

end MockEnclave

end Enclave
