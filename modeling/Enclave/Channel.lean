import Enclave.Error
import Enclave.Evidence.ReportData

/-!
# Measurement channels

An enclave meets its attestation hardware through three files. It writes what
it wants bound into `user_report_data`, and reads back a `report` for itself
or a `quote` for others. A channel is whatever stands behind these files.

Every use of a channel is one exchange in a session of its own,
`Channel.bindAndRead`: report data is written, and one file is read. The write
and the read belong together, since what is read embeds what was written last;
the session keeps other users of the channel out in between, and is closed
again however the exchange ends.

A channel acts in a monad of its own, so that the operations of the library
are the same over an emulated enclave, a channel that follows a script, and
the files of a real one.
-/

namespace Enclave

/-- **The files of the attestation hardware.** -/
inductive AttestationFile where
  /-- What the enclave wants bound. -/
  | userReportData
  /-- Evidence for the enclave itself. -/
  | report
  /-- Evidence for others. -/
  | quote
deriving DecidableEq, Repr

/-- The name of an attestation file. -/
def AttestationFile.name : AttestationFile → String
  | userReportData => "user_report_data"
  | report => "report"
  | quote => "quote"

/-- **Access to the attestation files.** -/
structure Channel (m : Type → Type) where
  /-- Waits until no other session is open, and opens one. -/
  openSession : m Unit
  /-- Writes bytes to a file and answers how many of them it took. -/
  write : AttestationFile → Bytes → ExceptT Error m Nat
  /-- Reads a file, up to a number of bytes. -/
  read : AttestationFile → Nat → ExceptT Error m Bytes
  /-- Closes the open session. -/
  closeSession : m Unit

namespace Channel

variable {m n : Type → Type}

/-- **One exchange**: report data is written and a file read. Unless all 64
bytes of report data were taken, nothing is read. -/
def exchange [Monad m] (ch : Channel m) (data : ReportData) (file : AttestationFile)
    (limit : Nat) : ExceptT Error m Bytes := do
  let written ← ch.write .userReportData data.toBytes
  if written = 64 then ch.read file limit
  else throw (.shortTransfer .write AttestationFile.userReportData.name 64 written)

/-- **One exchange in a session of its own.** -/
def bindAndRead [Monad m] (ch : Channel m) (data : ReportData) (file : AttestationFile)
    (limit : Nat) : ExceptT Error m Bytes := ExceptT.mk do
  ch.openSession
  let answer ← (ch.exchange data file limit).run
  ch.closeSession
  return answer

/-- **A channel acting in a larger world.** -/
def lift (f : {α : Type} → m α → n α) (ch : Channel m) : Channel n where
  openSession := f ch.openSession
  write file b := ExceptT.mk (f (ch.write file b).run)
  read file limit := ExceptT.mk (f (ch.read file limit).run)
  closeSession := f ch.closeSession

end Channel

end Enclave
