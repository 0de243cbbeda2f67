import Enclave.Proofs.Channel.EmulatedSession
import Enclave.Proofs.Evidence.QuoteCodec
import Enclave.Proofs.Evidence.ReportCodec

/-!
# The files of an emulated enclave

An emulated enclave may be cloned, and its clones used in turn; they have one
state between them. What this state is after any number of calls can be read off
the calls alone: it is the last report data that was written, whoever wrote it,
whatever else was tried in between (`MockEnclave.toBytes_heldAfter`).
`FileCall.bound?` says what a call contributes to this, and most calls contribute
nothing. A write of the wrong length is not taken, a write to another file is an
error, and a read is a read.

The three files are renderings of this state. They are made by different code,
and still state the same (`MockEnclave.Renders`): report and quote can be taken
apart again, into the identity, the report data held and a key id that only the
identity determines, and the body of the one is the body of the other.
-/

namespace Enclave

/-! ## What is rendered -/

/-- The measurement of a body is found where it was put. -/
theorem ReportBody.measurement_of (m : Measurement) (d : ReportData) :
    (ReportBody.of m d).measurement = m := by
  have h := Bytes.window_append (List.replicate 64 0) m.bytes (List.replicate 224 0 ++ d.toBytes)
  rw [List.length_replicate, ← List.append_assoc] at h
  unfold measurement
  rw [toBytes_of]
  exact congrArg Measurement.mk h

/-- So is its report data. -/
theorem ReportBody.reportData_of (m : Measurement) (d : ReportData) :
    (ReportBody.of m d).reportData = d := by
  have h := Bytes.window_append (List.replicate 64 0 ++ m.toBytes ++ List.replicate 224 0)
    d.bytes []
  rw [List.append_nil] at h
  simp only [List.length_append, List.length_replicate, Measurement.length_toBytes] at h
  unfold reportData
  rw [toBytes_of]
  exact congrArg ReportData.mk h

namespace MockEnclave

/-- **The evidence of an emulated enclave** that holds some report data. -/
structure Renders (e : MockEnclave) (held : ReportData) : Prop where
  /-- What was written can be read. -/
  userReportData : e.render held .userReportData = held.toBytes
  /-- There is a report in the file for reports. The key id in it does not depend
  on what is held. -/
  report : (e.render held .report).length = 432
    ∧ ∃ r, Report.parse (e.render held .report) = .ok r ∧ r.body.measurement = e.measurement
      ∧ r.body.reportData = held ∧ r.keyId = keyId e.measurement
  /-- There is a quote in the file for quotes. -/
  quote : (e.render held .quote).length = 436
    ∧ ∃ q, Quote.parse (e.render held .quote) = .ok q ∧ q.version = e.quoteVersion
      ∧ q.measurement = e.measurement ∧ q.reportData = held
  /-- Behind its header the quote has the body of the report. -/
  body : (e.render held .quote).slice 48 432 = (e.render held .report).slice 0 384

/-- **An emulated enclave renders what it holds.** -/
theorem renders (e : MockEnclave) (held : ReportData) : e.Renders held where
  userReportData := rfl
  report := ⟨Report.length_toBytes _, _, Report.parse_toBytes _,
    ReportBody.measurement_of _ _, ReportBody.reportData_of _ _, rfl⟩
  quote := by
    have h := Quote.written e.quoteVersion e.measurement held
    obtain ⟨q, hparse, hversion, hmeasurement, hreportData, -⟩ := h.parse
    exact ⟨h.length, q, hparse, hversion, hmeasurement, hreportData⟩
  body := by
    have hreport : (e.render held .report).slice 0 384
        = (ReportBody.of e.measurement held).toBytes := by
      show ((ReportBody.of e.measurement held).toBytes ++ _ ++ _).slice 0 384 = _
      rw [Bytes.slice_zero, List.append_assoc, List.take_left' (ReportBody.length_toBytes _)]
    rw [hreport]
    exact Quote.slice_unsigned_body e.quoteVersion _

end MockEnclave

/-! ## Calls in turn -/

/-- **A call on the files of an enclave.** -/
inductive FileCall where
  | write (file : AttestationFile) (b : Bytes)
  | read (file : AttestationFile) (limit : Nat)
  /-- A session, in which report data is written and a file read. -/
  | bindAndRead (data : ReportData) (file : AttestationFile) (limit : Nat)

namespace FileCall

/-- What a call is answered with, unless it fails. -/
def Answer : FileCall → Type
  | write _ _ => Nat
  | read _ _ => Bytes
  | bindAndRead _ _ _ => Bytes

/-- **The call, made** over a channel. -/
def perform {m : Type → Type} [Monad m] (ch : Channel m) :
    (call : FileCall) → ExceptT Error m call.Answer
  | write file b => ch.write file b
  | read file limit => ch.read file limit
  | bindAndRead data file limit => ch.bindAndRead data file limit

/-- **What a call has bound**: 64 bytes that it writes to the file for them. -/
def bound? : FileCall → Option Bytes
  | write .userReportData b => if b.length = 64 then some b else none
  | bindAndRead data _ _ => some data.toBytes
  | _ => none

end FileCall

/-- **A call through a clone** of an emulated enclave. A clone has the identity
and the state of the others; the version of its quotes may be its own. -/
structure CloneCall where
  /-- The version of the quotes of the clone. -/
  quoteVersion : UInt16
  /-- What is asked of it. -/
  call : FileCall

namespace MockEnclave

/-- **The report data that is held after some calls**, one after the other. -/
def heldAfter (m : Measurement) (calls : List CloneCall) (held : ReportData) : ReportData :=
  calls.foldl (fun held c => worldAfter (c.call.perform (channel ⟨m, c.quoteVersion⟩)) held) held

/-- **What was bound last** by some calls: zeros, if nothing was. -/
def lastBound (calls : List CloneCall) : Bytes :=
  (calls.filterMap (·.call.bound?)).getLastD (List.replicate 64 0)

variable (e : MockEnclave) (held : ReportData)

/-- **64 bytes are taken whole**, and held from then on. -/
theorem accept_of_length {b : Bytes} (h : b.length = 64) :
    ∃ data : ReportData, accept .userReportData b held = (.ok 64, data) ∧ data.toBytes = b := by
  have hdata : ReportData.ofBytes? b = some ⟨Bytes.window 64 0 b⟩ := if_pos h
  refine ⟨⟨Bytes.window 64 0 b⟩, ?_, ?_⟩
  · unfold accept
    rw [hdata]
  · show (Bytes.window 64 0 b).toList = b
    rw [Bytes.toList_window (Nat.le_of_eq h.symm), Bytes.slice_zero]
    exact List.take_of_length_le (Nat.le_of_eq h)

/-- **Any other number of bytes is not taken.** -/
theorem accept_of_length_ne {b : Bytes} (h : b.length ≠ 64) :
    accept .userReportData b held = (.ok 0, held) := by
  have hdata : ReportData.ofBytes? b = none := if_neg h
  unfold accept
  rw [hdata]

/-- **Only one file can be written.** -/
theorem accept_of_ne {file : AttestationFile} (h : file ≠ .userReportData) (b : Bytes) :
    accept file b held = (.error (.channelUnavailable file.name .readOnly), held) := by
  cases file with
  | userReportData => exact absurd rfl h
  | report => rfl
  | quote => rfl

/-- **A call that binds something has it held**, and any other leaves what was held. -/
theorem toBytes_worldAfter_perform (call : FileCall) :
    (worldAfter (call.perform e.channel) held).toBytes = call.bound?.getD held.toBytes := by
  cases call with
  | write file b =>
    show (accept file b held).2.toBytes = _
    cases file with
    | userReportData =>
      by_cases hlength : b.length = 64
      · obtain ⟨data, haccept, hdata⟩ := accept_of_length held hlength
        rw [haccept, FileCall.bound?, if_pos hlength]
        exact hdata
      · rw [accept_of_length_ne held hlength, FileCall.bound?, if_neg hlength]
        rfl
    | report => rfl
    | quote => rfl
  | read file limit => rfl
  | bindAndRead data file limit =>
    show ((e.channel.bindAndRead data file limit).run held).2.toBytes = data.toBytes
    rw [run_bindAndRead]

/-- **After any calls, what was bound last is held.** -/
theorem toBytes_heldAfter (m : Measurement) (calls : List CloneCall) :
    (heldAfter m calls held).toBytes
      = (calls.filterMap (·.call.bound?)).getLastD held.toBytes := by
  induction calls generalizing held with
  | nil => rfl
  | cons c calls ih =>
    have hstep := toBytes_worldAfter_perform ⟨m, c.quoteVersion⟩ held c.call
    show (heldAfter m calls (worldAfter (c.call.perform (channel ⟨m, _⟩)) held)).toBytes = _
    rw [ih, hstep, List.filterMap_cons]
    cases c.call.bound? with
    | none => rfl
    | some b => rw [List.getLastD_cons, Option.getD_some]

/-- **An emulated enclave after some calls**: what it holds, and what any clone of
it does next. -/
structure Tracks (m : Measurement) (calls : List CloneCall) (held : ReportData) : Prop where
  /-- It holds what was bound last. -/
  latest : held.toBytes = lastBound calls
  /-- 64 bytes that are written are held from then on. -/
  write : ∀ (v : UInt16) (b : Bytes), b.length = 64 →
    ∃ data, ((channel ⟨m, v⟩).write .userReportData b).run held = (.ok 64, data)
      ∧ data.toBytes = b
  /-- Of another number of bytes none is taken. -/
  write_of_length_ne : ∀ (v : UInt16) (b : Bytes), b.length ≠ 64 →
    ((channel ⟨m, v⟩).write .userReportData b).run held = (.ok 0, held)
  /-- The other files may not be written. -/
  write_of_ne : ∀ (v : UInt16) (file : AttestationFile) (b : Bytes), file ≠ .userReportData →
    ∃ cause, ((channel ⟨m, v⟩).write file b).run held
        = (.error (.channelUnavailable file.name cause), held)
      ∧ cause.kind = .permissionDenied
  /-- A read has the beginning of what is rendered, and changes nothing. -/
  read : ∀ (v : UInt16) (file : AttestationFile) (limit : Nat),
    ((channel ⟨m, v⟩).read file limit).run held
      = (.ok ((render ⟨m, v⟩ held file).take limit), held)
  /-- In a session it is rendered from the report data of the session, which is
  held from then on. -/
  bindAndRead : ∀ (v : UInt16) (data : ReportData) (file : AttestationFile) (limit : Nat),
    ((channel ⟨m, v⟩).bindAndRead data file limit).run held
      = (.ok ((render ⟨m, v⟩ data file).take limit), data)
  /-- What is rendered states the identity, the version and what is held. -/
  renders : ∀ v : UInt16, Renders ⟨m, v⟩ held

/-- **An emulated enclave keeps track of what was bound**, through any calls and
any clones. -/
theorem tracks_heldAfter (m : Measurement) (calls : List CloneCall) :
    Tracks m calls (heldAfter m calls .zero) where
  latest := toBytes_heldAfter .zero m calls
  write _ _ h := accept_of_length _ h
  write_of_length_ne _ _ h := accept_of_length_ne _ h
  write_of_ne _ _ b h := ⟨.readOnly, accept_of_ne _ h b, rfl⟩
  read _ _ _ := rfl
  bindAndRead v data file limit := run_bindAndRead ⟨m, v⟩ data _ file limit
  renders v := MockEnclave.renders ⟨m, v⟩ _

end MockEnclave

end Enclave
