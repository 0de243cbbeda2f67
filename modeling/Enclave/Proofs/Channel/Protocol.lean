import Enclave.Proofs.Sealing.KeyDerivation
import Enclave.Proofs.Sealing.Operations

/-!
# The calls that an operation makes

Seen from the attestation files, all operations of a certifier are the same. Each
makes no call at all, when what it was given is reason enough to refuse it, or
the calls of one session: it writes 64 bytes of report data, and after exactly
64 bytes were taken, it reads one file once. Which of the two it is depends on
what was given alone (`Operation.Refused`), and what the channel does wrong is
what the operation answers.

This is seen over a channel that follows a script, with a requester that keeps
the requests it is given, so that both can misbehave and be watched in every
way. A key is requested once, by the operations that need one, if a whole report
was read.
-/

namespace Enclave

namespace Operation

/-! ## What is refused -/

/-- **What is refused without a call**: a plaintext beyond the limit or beyond what
a length field can state, sealed data that is not framed as a blob, and a blob
with a ciphertext beyond the limit. -/
def Refused (maxPayload : Nat) : Operation → Prop
  | sealAs _ plaintext => maxPayload < plaintext.length ∨ 2 ^ 32 ≤ plaintext.length
  | unsealAs layout data => ¬ Blob.WellFramed layout data ∨ maxPayload < Blob.declared data
  | _ => False

/-- Sealed data that is framed as a blob is looked at for the length in it. -/
theorem precheck_unsealAs_of_wellFramed {layout : Layout} {data : Bytes}
    (h : Blob.WellFramed layout data) (maxPayload : Nat) :
    (unsealAs layout data).precheck maxPayload
      = Sealer.checkCapacity maxPayload (Blob.declared data) := by
  show (Sealer.parseSealed layout data >>= _) = _
  rw [Sealer.parseSealed_of_wellFramed h, ← Blob.length_ciphertext_parts h]
  rfl

theorem precheck_of_refused {maxPayload : Nat} {operation : Operation}
    (h : operation.Refused maxPayload) : ∃ e, operation.precheck maxPayload = .error e := by
  cases operation with
  | sealAs layout plaintext =>
    by_cases hlimit : maxPayload < plaintext.length
    · exact ⟨_, Sealer.checkCapacity_of_lt hlimit⟩
    · exact ⟨_, Sealer.checkCapacity_of_maxLength_lt (Nat.not_lt.mp hlimit)
        (h.resolve_left hlimit)⟩
  | unsealAs layout data =>
    by_cases hframed : Blob.WellFramed layout data
    · rw [precheck_unsealAs_of_wellFramed hframed]
      exact ⟨_, Sealer.checkCapacity_of_lt (h.resolve_left (not_not_intro hframed))⟩
    · obtain ⟨fault, hsealed⟩ := Sealer.parseSealed_of_not_wellFramed hframed
      refine ⟨.malformedBlob fault, ?_⟩
      show (Sealer.parseSealed layout data >>= _) = _
      rw [hsealed]
      rfl
  | attest | verify | measurement | deriveKey => exact h.elim

theorem precheck_of_not_refused {maxPayload : Nat} {operation : Operation}
    (h : ¬ operation.Refused maxPayload) : operation.precheck maxPayload = .ok () := by
  cases operation with
  | sealAs layout plaintext =>
    obtain ⟨hlimit, hlength⟩ := not_or.mp h
    exact Sealer.checkCapacity_of_le (Nat.not_lt.mp hlimit)
      (Nat.le_of_lt_succ (Nat.not_le.mp hlength))
  | unsealAs layout data =>
    obtain ⟨hframed, hlimit⟩ := not_or.mp h
    rw [precheck_unsealAs_of_wellFramed (not_not.mp hframed)]
    exact Sealer.checkCapacity_of_le (Nat.not_lt.mp hlimit) (Blob.declared_le data)
  | attest | verify | measurement | deriveKey => rfl

/-! ## What is bound -/

/-- **The 64 bytes that an operation writes**: the digest of what it is given, the
measurement that a key is for, or nothing but zeros. -/
def bound (identity : Measurement) : Operation → Bytes
  | attest claims => Bytes.padTo 64 (sha256 claims).toList
  | verify userData _ _ _ => Bytes.padTo 64 (sha256 userData).toList
  | sealAs _ _ => Bytes.padTo 64 identity.toBytes
  | unsealAs _ _ => Bytes.padTo 64 identity.toBytes
  | measurement => Bytes.padTo 64 []
  | deriveKey identity => Bytes.padTo 64 identity.toBytes

theorem toBytes_ofDigest (d : Vector UInt8 32) :
    (ReportData.ofDigest d).toBytes = Bytes.padTo 64 d.toList := by
  unfold ReportData.ofDigest ReportData.toBytes Bytes.padTo
  rw [Vector.toList_append, Vector.length_toList]
  rfl

theorem toBytes_binding (identity : Measurement) (operation : Operation) :
    (operation.binding identity).toBytes = operation.bound identity := by
  cases operation with
  | attest | verify | sealAs | unsealAs | deriveKey => exact toBytes_ofDigest _
  | measurement => rfl

end Operation

/-! ## Certifiers over scripts -/

/-- **A certifier over a scripted channel**, with a requester that answers by a
function and keeps the requests it is given beside the script. -/
def Script.certifier (keys : KeyRequest → SealKey) (nonce : Block) (identity : Measurement)
    (maxPayload : Nat) : Certifier (StateM (Script × List KeyRequest)) where
  channel := Script.channel.lift besideRequests
  requester := KeyRequester.logged ⟨fun request => pure (keys request)⟩
  freshNonce := pure nonce
  measurement := identity
  maxPayload

@[simp] theorem Script.maxPayload_certifier (keys : KeyRequest → SealKey) (nonce : Block)
    (identity : Measurement) (maxPayload : Nat) :
    (certifier keys nonce identity maxPayload).maxPayload = maxPayload := rfl

namespace Operation

variable (keys : KeyRequest → SealKey) (nonce : Block) (identity : Measurement) (maxPayload : Nat)
  (operation : Operation) (s : Script) (requests : List KeyRequest)

/-- The session of an operation over a script is a session of the script. -/
theorem answerOf_session_script :
    answerOf (operation.session (Script.certifier keys nonce identity maxPayload)) (s, requests)
      = s.evidence := by
  have hlift := Channel.answerOf_bindAndRead_lift Script.channel (operation.binding identity)
    operation.file operation.limit s (actsOn_besideRequests requests)
  rw [Script.answerOf_bindAndRead] at hlift
  exact hlift

/-- It leaves its calls in the log, and requests no key. -/
theorem worldAfter_session_script :
    ∃ s' : Script,
      worldAfter (operation.session (Script.certifier keys nonce identity maxPayload)) (s, requests)
        = (s', requests)
      ∧ s'.log = s.log ++ Script.sessionCalls (operation.bound identity) operation.file
        operation.limit s.nextWrite := by
  have hlift := Channel.worldAfter_bindAndRead_lift Script.channel (operation.binding identity)
    operation.file operation.limit s (actsOn_besideRequests requests)
  refine ⟨_, hlift, ?_⟩
  rw [Script.log_bindAndRead, toBytes_binding]

/-- A key that is used without further calls leaves the request for it behind. -/
theorem worldAfter_keyFor_script {β : Type} (raw : Bytes)
    (f : SealKey → ExceptT Error (StateM (Script × List KeyRequest)) β)
    (hf : ∀ key w, worldAfter (f key) w = w) :
    worldAfter ((Script.certifier keys nonce identity maxPayload).requester.keyFor raw >>= f)
        (s, requests)
      = (s, requests ++ KeyRequest.madeFor raw) := by
  have hworld := KeyRequester.worldAfter_keyFor_logged ⟨fun request => pure (keys request)⟩ raw s
    requests
  have hpure : worldAfter (KeyRequester.keyFor
      (⟨fun request => pure (keys request)⟩ : KeyRequester (StateM Script)) raw) s = s := by
    unfold KeyRequester.keyFor
    split <;> rfl
  rw [hpure] at hworld
  unfold Script.certifier
  rw [worldAfter_bind, hworld]
  split
  · exact hf _ _
  · rfl

/-- **What an operation does after its session**: it requests a key for what it
read, if it needs one, and makes no call. -/
theorem worldAfter_conclude_script (raw : Bytes) :
    worldAfter (operation.conclude (Script.certifier keys nonce identity maxPayload) raw)
        (s, requests)
      = (s, requests ++ if operation.needsKey then KeyRequest.madeFor raw else []) := by
  have hkey {β : Type} := worldAfter_keyFor_script keys nonce identity maxPayload s requests
    (β := β) raw
  cases operation with
  | attest claims =>
    show _ = (s, requests ++ [])
    rw [List.append_nil]
    rfl
  | verify userData received name verdict =>
    show _ = (s, requests ++ [])
    unfold conclude
    rw [List.append_nil, worldAfter_bind, answerOf_liftExcept, worldAfter_liftExcept]
    split
    · rw [worldAfter_bind, answerOf_liftExcept, worldAfter_liftExcept]
      split <;> rfl
    · rfl
  | sealAs layout plaintext =>
    cases layout with
    | legacy => exact hkey _ fun _ _ => rfl
    | nonced => exact hkey _ fun _ _ => rfl
  | unsealAs layout data =>
    refine hkey _ fun key w => ?_
    split <;> rfl
  | measurement =>
    show _ = (s, requests ++ [])
    unfold conclude
    rw [List.append_nil, worldAfter_bind, answerOf_liftExcept, worldAfter_liftExcept]
    split <;> rfl
  | deriveKey identity' => exact hkey _ fun _ _ => rfl

/-- What has not the size of a report brings no key, but the error of a short
read. -/
theorem answerOf_conclude_of_length_ne {σ : Type} (c : Certifier (StateM σ)) {raw : Bytes}
    (hlen : raw.length ≠ 432) (w : σ) {operation : Operation} (h : operation.needsKey = true) :
    answerOf (operation.conclude c raw) w
      = .error (.shortTransfer .read "report" 432 raw.length) := by
  have hkey {β : Type} (f : SealKey → ExceptT Error (StateM σ) β) :
      answerOf (c.requester.keyFor raw >>= f) w
        = .error (.shortTransfer .read "report" 432 raw.length) := by
    rw [answerOf_bind, KeyRequester.answerOf_keyFor, if_neg hlen]
  cases operation with
  | attest | verify | measurement => cases h
  | sealAs layout plaintext =>
    cases layout with
    | legacy => exact hkey _
    | nonced => exact hkey _
  | unsealAs | deriveKey => exact hkey _

variable {keys nonce identity maxPayload operation s requests}

/-- **An operation that is not refused makes the calls of one session.** -/
theorem log_run_script (h : ¬ operation.Refused maxPayload) :
    (worldAfter (operation.run (Script.certifier keys nonce identity maxPayload))
        (s, requests)).1.log
      = s.log ++ Script.sessionCalls (operation.bound identity) operation.file operation.limit
        s.nextWrite := by
  obtain ⟨s', hworld, hlog⟩ :=
    worldAfter_session_script keys nonce identity maxPayload operation s requests
  rw [worldAfter_run, Script.maxPayload_certifier, precheck_of_not_refused h, hworld]
  dsimp only
  split
  · exact hlog
  · rw [worldAfter_conclude_script]
    exact hlog

/-- **A session that brings nothing** is the end of the operation. -/
theorem run_script_of_error (h : ¬ operation.Refused maxPayload) {e : Error}
    (he : s.evidence = .error e) :
    answerOf (operation.run (Script.certifier keys nonce identity maxPayload)) (s, requests)
        = .error e
      ∧ (worldAfter (operation.run (Script.certifier keys nonce identity maxPayload))
        (s, requests)).2 = requests := by
  obtain ⟨s', hworld, -⟩ :=
    worldAfter_session_script keys nonce identity maxPayload operation s requests
  rw [answerOf_run, worldAfter_run, Script.maxPayload_certifier, precheck_of_not_refused h,
    answerOf_session_script, he, hworld]
  exact ⟨rfl, rfl⟩

/-- **From the bytes of a session** an operation concludes, with a key if it needs
one. -/
theorem run_script_of_ok (h : ¬ operation.Refused maxPayload) {raw : Bytes}
    (hraw : s.evidence = .ok raw) :
    (∃ w, answerOf (operation.run (Script.certifier keys nonce identity maxPayload)) (s, requests)
        = answerOf (operation.conclude (Script.certifier keys nonce identity maxPayload) raw) w)
      ∧ (worldAfter (operation.run (Script.certifier keys nonce identity maxPayload))
        (s, requests)).2 = requests ++ if operation.needsKey then KeyRequest.madeFor raw else [] := by
  obtain ⟨s', hworld, -⟩ :=
    worldAfter_session_script keys nonce identity maxPayload operation s requests
  rw [answerOf_run, worldAfter_run, Script.maxPayload_certifier, precheck_of_not_refused h,
    answerOf_session_script, hraw, hworld]
  dsimp only
  rw [worldAfter_conclude_script]
  exact ⟨⟨_, rfl⟩, rfl⟩

/-- **What is refused is refused without a call** and without a request. -/
theorem run_script_of_refused (h : operation.Refused maxPayload) :
    worldAfter (operation.run (Script.certifier keys nonce identity maxPayload)) (s, requests)
        = (s, requests)
      ∧ ∃ e, answerOf (operation.run (Script.certifier keys nonce identity maxPayload))
        (s, requests) = .error e := by
  obtain ⟨e, he⟩ := precheck_of_refused h
  rw [answerOf_run, worldAfter_run, Script.maxPayload_certifier, he]
  exact ⟨rfl, e, rfl⟩

/-- **The calls that an operation makes**, over any script.

What it refuses, it refuses without a call and without a request. Anything else
makes the calls of one session: 64 bytes written as report data, and one read
of a quote or a report if exactly 64 bytes were taken. The failure of a call is
the answer, and another count than 64 is a short transfer. A key is requested
once by an operation that needs one, if a whole report was read, and otherwise
not at all; then a report of another size is a short transfer as well. -/
theorem run_over_script (keys : KeyRequest → SealKey) (nonce : Block) (identity : Measurement)
    (maxPayload : Nat) (operation : Operation) (s : Script) (requests : List KeyRequest) :
    let c := Script.certifier keys nonce identity maxPayload
    let answer := answerOf (operation.run c) (s, requests)
    let after := worldAfter (operation.run c) (s, requests)
    (operation.Refused maxPayload → after = (s, requests) ∧ ∃ e, answer = .error e)
      ∧ (¬ operation.Refused maxPayload →
        (operation.bound identity).length = 64
        ∧ after.1.log = s.log ++ Script.sessionCalls (operation.bound identity) operation.file
          operation.limit s.nextWrite
        ∧ (∀ e, s.nextWrite = .error e → answer = .error e ∧ after.2 = requests)
        ∧ (∀ n, s.nextWrite = .ok n → n ≠ 64 →
          answer = .error (.shortTransfer .write "user_report_data" 64 n) ∧ after.2 = requests)
        ∧ (∀ e, s.nextWrite = .ok 64 → s.nextRead = .error e →
          answer = .error e ∧ after.2 = requests)
        ∧ (∀ raw, s.nextWrite = .ok 64 → s.nextRead = .ok raw →
          (operation.needsKey = false → after.2 = requests)
          ∧ (operation.needsKey = true → raw.length = 432 → ∃ r, after.2 = requests ++ [r])
          ∧ (operation.needsKey = true → raw.length ≠ 432 → after.2 = requests
            ∧ answer = .error (.shortTransfer .read "report" 432 raw.length)))) := by
  intro c answer after
  refine ⟨run_script_of_refused, fun h => ⟨?_, log_run_script h, fun e he => ?_,
    fun n hn hne => ?_, fun e hn he => ?_, fun raw hn hraw => ?_⟩⟩
  · rw [← toBytes_binding]
    exact ReportData.length_toBytes _
  · refine run_script_of_error h ?_
    rw [Script.evidence, he]
  · refine run_script_of_error h ?_
    rw [Script.evidence, hn]
    exact if_neg hne
  · refine run_script_of_error h ?_
    rw [Script.evidence, hn, ← he]
    exact if_pos rfl
  · have hevidence : s.evidence = .ok raw := by
      rw [Script.evidence, hn, ← hraw]
      exact if_pos rfl
    have hrun : (∃ w, answer = answerOf (operation.conclude c raw) w)
        ∧ after.2 = requests ++ if operation.needsKey then KeyRequest.madeFor raw else [] :=
      run_script_of_ok h hevidence
    obtain ⟨⟨w, hconcluded⟩, hmade⟩ := hrun
    refine ⟨fun hkey => ?_, fun hkey hlen => ⟨.forBytes raw, ?_⟩, fun hkey hlen => ⟨?_, ?_⟩⟩
    · rw [hmade, hkey]
      exact List.append_nil _
    · rw [hmade, if_pos hkey, KeyRequest.madeFor, if_pos hlen]
    · rw [hmade, if_pos hkey, KeyRequest.madeFor, if_neg hlen, List.append_nil]
    · rw [hconcluded, answerOf_conclude_of_length_ne c hlen w hkey]

/-- Four bytes to be sealed under a limit of three, three bytes after a write that
took one byte too many, and three bytes after a session without a fault. -/
theorem run_over_script_sealing :
    let c := Script.certifier (fun _ => ⟨.zero⟩) .zero .zero 3
    let oversized : Script := { writes := [.ok 65], reads := [] }
    let faultless : Script := { writes := [], reads := [.ok (List.replicate 432 0)] }
    worldAfter ((sealAs .legacy [1, 2, 3, 4]).run c) (oversized, []) = (oversized, [])
      ∧ (worldAfter ((sealAs .legacy [1, 2, 3]).run c) (oversized, [])).1.log
        = [.openSession, .write .userReportData (List.replicate 64 0)]
      ∧ answerOf ((sealAs .legacy [1, 2, 3]).run c) (oversized, [])
        = .error (.shortTransfer .write "user_report_data" 64 65)
      ∧ (worldAfter ((sealAs .legacy [1, 2, 3]).run c) (faultless, [])).1.log
        = [.openSession, .write .userReportData (List.replicate 64 0), .read .report 432]
      ∧ ∃ r, (worldAfter ((sealAs .legacy [1, 2, 3]).run c) (faultless, [])).2 = [r] := by
  intro c oversized faultless
  have haccepted : ¬ (sealAs .legacy [1, 2, 3]).Refused 3 := by
    unfold Refused
    decide
  have hrefused : (sealAs .legacy [1, 2, 3, 4]).Refused 3 := .inl (by decide)
  have hbound : (sealAs .legacy [1, 2, 3]).bound .zero = List.replicate 64 0 := by decide
  obtain ⟨hunchanged, -⟩ := (run_over_script (fun _ => ⟨.zero⟩) .zero .zero 3
    (sealAs .legacy [1, 2, 3, 4]) oversized []).1 hrefused
  obtain ⟨-, hlog, -, hshort, -⟩ := (run_over_script (fun _ => ⟨.zero⟩) .zero .zero 3
    (sealAs .legacy [1, 2, 3]) oversized []).2 haccepted
  obtain ⟨-, hlog', -, -, -, hread⟩ := (run_over_script (fun _ => ⟨.zero⟩) .zero .zero 3
    (sealAs .legacy [1, 2, 3]) faultless []).2 haccepted
  rw [hbound] at hlog hlog'
  refine ⟨hunchanged, hlog, (hshort 65 rfl (by decide)).1, ?_,
    (hread _ rfl rfl).2.1 rfl List.length_replicate⟩
  rw [show c = Script.certifier (fun _ => ⟨.zero⟩) .zero .zero 3 from rfl, hlog']
  rfl

end Operation

end Enclave
