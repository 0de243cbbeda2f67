import Enclave.Channel
import Enclave.Evidence.Quote

/-!
# Emulated enclaves

A channel without hardware. It holds the report data that was written last,
and renders report and quote from it on every read, with the identity it was
given and without any signature. Like the real file, `user_report_data` takes
64 bytes or nothing, and the two others cannot be written.

The report data is the only state; clones of an emulated enclave share it.
-/

namespace Enclave

/-- **An emulated enclave.** -/
structure MockEnclave where
  /-- The identity it attests. -/
  measurement : Measurement
  /-- The version of its quotes. -/
  quoteVersion : UInt16 := 3
deriving DecidableEq, Repr

namespace MockEnclave

/-- The identity of an emulated enclave that was given none. -/
def defaultMeasurement : Measurement := ⟨sha256 (Bytes.ofText "certifier mock enclave")⟩

/-- **The key id in the reports of an identity**, the same at every time. -/
def keyId (m : Measurement) : Vector UInt8 32 :=
  sha256 (Bytes.ofText "mock-key-id" ++ m.toBytes)

/-- The report of an emulated enclave that holds some report data. -/
def report (e : MockEnclave) (data : ReportData) : Report :=
  ⟨.of e.measurement data, keyId e.measurement, Vector.replicate 16 0⟩

/-- The quote of an emulated enclave that holds some report data. -/
def quote (e : MockEnclave) (data : ReportData) : Bytes :=
  Quote.unsigned e.quoteVersion (.of e.measurement data)

/-- **The content of a file** while some report data is held. -/
def render (e : MockEnclave) (data : ReportData) : AttestationFile → Bytes
  | .userReportData => data.toBytes
  | .report => (e.report data).toBytes
  | .quote => e.quote data

/-- **What a write does**: the answer, and the report data held afterwards. -/
def accept (file : AttestationFile) (b : Bytes) (held : ReportData) :
    Except Error Nat × ReportData :=
  match file with
  | .userReportData =>
    match ReportData.ofBytes? b with
    | some data => (.ok 64, data)
    | none => (.ok 0, held)
  | other => (.error (.channelUnavailable other.name .readOnly), held)

/-- **The channel of an emulated enclave.** Its state is the report data held. -/
def channel (e : MockEnclave) : Channel (StateM ReportData) where
  openSession := pure ()
  write file b := ExceptT.mk (accept file b)
  read file limit := ExceptT.mk fun held => (.ok ((e.render held file).take limit), held)
  closeSession := pure ()

end MockEnclave

end Enclave
