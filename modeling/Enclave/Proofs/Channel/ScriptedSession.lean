import Enclave.Channel.Scripted
import Enclave.Proofs.Outcome

/-!
# Sessions with a scripted channel

A scripted channel can answer anything, and what it is asked stands in its log.
A session consults at most two entries of the script, the answer to the write
and the one to the read, and only these matter: which calls are logged depends
on the first (`Script.log_bindAndRead`), and the answer of the session on both
(`Script.answerOf_bindAndRead`).
-/

namespace Enclave.Script

/-- **The answer to the next write of report data**: what the script says, or all
64 bytes once it has ended. -/
def nextWrite (s : Script) : Except Error Nat := s.writes.headD (.ok 64)

/-- **The answer to the next read**: what the script says, or nothing once it has
ended. -/
def nextRead (s : Script) : Except Error Bytes := s.reads.headD (.ok [])

/-- **What a session brings**: the failure of the write, a short transfer if it
took another number of bytes than 64, and else the answer to the read. -/
def evidence (s : Script) : Except Error Bytes :=
  match s.nextWrite with
  | .error e => .error e
  | .ok n =>
    if n = 64 then s.nextRead else .error (.shortTransfer .write "user_report_data" 64 n)

/-- **The calls of one session**: that it was opened, that some bytes were written
as report data, and that a file was read, if the write took 64 bytes. -/
def sessionCalls (b : Bytes) (file : AttestationFile) (limit : Nat)
    (written : Except Error Nat) : List ChannelCall :=
  [.openSession, .write .userReportData b]
    ++ match written with
      | .ok n => if n = 64 then [.read file limit] else []
      | .error _ => []

/-- The script after a session was opened and some bytes were written in it. -/
def wrote (s : Script) (b : Bytes) : Script where
  writes := s.writes.tail
  reads := s.reads
  log := s.log ++ [.openSession] ++ [.write .userReportData b]

variable (data : ReportData) (file : AttestationFile) (limit : Nat) (s : Script)

/-- A write in an open session. -/
theorem run_write :
    (channel.write .userReportData data.toBytes).run (channel.openSession s).2
      = (s.nextWrite, s.wrote data.toBytes) := by
  have htaken : (.ok data.toBytes.length : Except Error Nat) = .ok 64 :=
    congrArg _ data.length_toBytes
  obtain ⟨writes, reads, log⟩ := s
  cases writes with
  | nil => exact congrArg (·, wrote ⟨[], reads, log⟩ data.toBytes) htaken
  | cons answer rest => rfl

/-- A read answers what the script says. -/
theorem answerOf_read : answerOf (channel.read file limit) s = s.nextRead := by
  obtain ⟨writes, reads, log⟩ := s
  cases reads <;> rfl

/-- It is logged. -/
theorem log_read :
    (worldAfter (channel.read file limit) s).log = s.log ++ [.read file limit] := by
  obtain ⟨writes, reads, log⟩ := s
  cases reads <;> rfl

/-- **What a session answers** is what it brings. -/
theorem answerOf_bindAndRead :
    answerOf (channel.bindAndRead data file limit) s = s.evidence := by
  have hanswer : answerOf (channel.write .userReportData data.toBytes) (channel.openSession s).2
      = s.nextWrite := congrArg Prod.fst (run_write data s)
  have hworld : worldAfter (channel.write .userReportData data.toBytes) (channel.openSession s).2
      = s.wrote data.toBytes := congrArg Prod.snd (run_write data s)
  rw [Channel.answerOf_bindAndRead, Channel.answerOf_exchange, hanswer, hworld, answerOf_read,
    evidence]
  rfl

/-- **What a session leaves in the log.** -/
theorem log_bindAndRead :
    (worldAfter (channel.bindAndRead data file limit) s).log
      = s.log ++ sessionCalls data.toBytes file limit s.nextWrite := by
  have hanswer : answerOf (channel.write .userReportData data.toBytes) (channel.openSession s).2
      = s.nextWrite := congrArg Prod.fst (run_write data s)
  have hworld : worldAfter (channel.write .userReportData data.toBytes) (channel.openSession s).2
      = s.wrote data.toBytes := congrArg Prod.snd (run_write data s)
  have hlog : (s.wrote data.toBytes).log
      = s.log ++ [.openSession, .write .userReportData data.toBytes] := List.append_assoc _ _ _
  rw [Channel.worldAfter_bindAndRead, Channel.worldAfter_exchange, hanswer, hworld]
  show (match s.nextWrite with
    | .error _ => s.wrote data.toBytes
    | .ok n => if n = 64 then _ else s.wrote data.toBytes : Script).log = _
  unfold sessionCalls
  rw [← List.append_assoc, ← hlog]
  cases s.nextWrite with
  | error e => exact (List.append_nil _).symm
  | ok n =>
    dsimp only
    by_cases hn : n = 64
    · rw [if_pos hn, if_pos hn, log_read]
    · rw [if_neg hn, if_neg hn, List.append_nil]

end Enclave.Script
