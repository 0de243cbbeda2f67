import Enclave.Proofs.Attestation.Agreement
import Enclave.Proofs.Sealing.KeyDerivation

/-!
# Emulated enclaves forget

An emulated enclave holds the report data that was written last, and its clones
hold it together with it. Nothing that is asked of it later depends on that,
since every operation writes report data of its own before it reads. So a party
answers the same after any two histories, also after a restart that begins with
a new enclave of the same identity. What was sealed before is then not lost.

The argument has three parts. A session with an enclave that exists brings what
the enclave renders from the report data of that session
(`MockParty.answerOf_session`), and no use of an enclave takes one away
(`MockParty.Use.le_length_enclaves`). Of a report only the key id is used, which
is fixed by the identity (`MockEnclave.forBytes_report`). And what an operation
makes of these bytes, it makes of nothing else, unless it draws a nonce
(`MockParty.answerOf_conclude_congr`).
-/

namespace Enclave

/-! ## The key of an identity -/

namespace MockEnclave

/-- **The sealing key of an emulated enclave**, of which its reports state one
identity and its key derivation has another. -/
def sealingKey (reported derived : Measurement) : SealKey :=
  KeyRequester.mockKey derived
    (.forReport ⟨.of reported .zero, keyId reported, Vector.replicate 16 0⟩)

/-- **The key that a report is for** depends on the identity alone. -/
theorem forBytes_report (e : MockEnclave) (data : ReportData) :
    KeyRequest.forBytes (e.report data).toBytes
      = .forReport ⟨.of e.measurement .zero, keyId e.measurement, Vector.replicate 16 0⟩ := by
  have hkeyId : Bytes.window 32 384 (e.report data).toBytes = keyId e.measurement := by
    have h := Bytes.window_append (e.report data).body.toBytes (keyId e.measurement)
      (e.report data).mac.toList
    rwa [ReportBody.length_toBytes] at h
  unfold KeyRequest.forBytes KeyRequest.forReport
  rw [hkeyId]

end MockEnclave

/-! ## What an operation depends on -/

namespace Operation

/-- **Whether an operation draws a nonce.** -/
def drawsNonce : Operation → Bool
  | sealAs .nonced _ => true
  | _ => false

/-- **Whether the limit for payloads matters to an operation.** -/
def hasPayload : Operation → Bool
  | sealAs _ _ => true
  | unsealAs _ _ => true
  | _ => false

/-- An operation without a payload finds nothing out by itself. -/
theorem precheck_congr {operation : Operation} {n n' : Nat}
    (h : operation.hasPayload = true → n = n') : operation.precheck n = operation.precheck n' := by
  cases operation with
  | sealAs | unsealAs => rw [h rfl]
  | attest | verify | measurement | deriveKey => rfl

end Operation

namespace MockParty

variable {p q : MockParty} {w w' : Machine}

/-- **What a party reads for an operation**, from an enclave that exists. -/
def evidence (p : MockParty) (operation : Operation) : Bytes :=
  (p.enclave.render (operation.binding p.measurement) operation.file).take operation.limit

/-- **A session of a party** brings what its enclave renders, whatever the enclave
held. -/
theorem answerOf_session (hp : p.number < w.enclaves.length) (operation : Operation) :
    answerOf (operation.session p.certifier) w = .ok (p.evidence operation) :=
  Machine.answerOf_bindAndRead_enclaveChannel p.enclave hp _ _ _

/-- What a party reads for a key is a report. -/
theorem evidence_of_needsKey {operation : Operation} (h : operation.needsKey = true) :
    p.evidence operation = (p.enclave.report (operation.binding p.measurement)).toBytes := by
  unfold evidence Operation.file Operation.limit
  rw [if_pos h, if_pos h]
  exact List.take_of_length_le (Nat.le_of_eq (Report.length_toBytes _))

/-- What a party reads for a quote does not depend on what its keys are scoped
to. -/
theorem evidence_of_not_needsKey {operation : Operation} (henclave : p.enclave = q.enclave)
    (h : operation.needsKey = false) : p.evidence operation = q.evidence operation := by
  unfold evidence
  rw [henclave]
  cases operation with
  | attest | verify | measurement => rfl
  | sealAs | unsealAs | deriveKey => cases h

/-- **The key of a party** is that of its two identities, and nothing else. -/
theorem answerOf_keyFor_evidence (p : MockParty) {operation : Operation}
    (h : operation.needsKey = true) (w : Machine) :
    answerOf (p.certifier.requester.keyFor (p.evidence operation)) w
      = .ok (MockEnclave.sealingKey p.enclave.measurement p.identity) := by
  rw [KeyRequester.answerOf_keyFor, evidence_of_needsKey h, if_pos (Report.length_toBytes _),
    MockEnclave.forBytes_report]
  rfl

/-- **What an operation concludes** is the same for two parties of the same
identity, in any two worlds. -/
theorem answerOf_conclude_congr (henclave : p.enclave = q.enclave)
    (hidentity : p.identity = q.identity) {operation : Operation}
    (hnonce : operation.drawsNonce = false) (w w' : Machine) :
    answerOf (operation.conclude p.certifier (p.evidence operation)) w
      = answerOf (operation.conclude q.certifier (q.evidence operation)) w' := by
  -- an operation that needs a key goes on with the same key, and then without the world
  have hkey {β : Type} (h : operation.needsKey = true)
      (f : SealKey → ExceptT Error (StateM Machine) β)
      (hf : ∀ key v v', answerOf (f key) v = answerOf (f key) v') :
      answerOf (p.certifier.requester.keyFor (p.evidence operation) >>= f) w
        = answerOf (q.certifier.requester.keyFor (q.evidence operation) >>= f) w' := by
    rw [answerOf_bind, answerOf_bind, p.answerOf_keyFor_evidence h, q.answerOf_keyFor_evidence h,
      henclave, hidentity]
    exact hf _ _ _
  cases operation with
  | attest claims =>
    rw [evidence_of_not_needsKey henclave rfl]
    rfl
  | verify userData received name verdict =>
    rw [evidence_of_not_needsKey henclave rfl]
    unfold Operation.conclude
    rw [answerOf_bind, answerOf_bind, answerOf_liftExcept, answerOf_liftExcept]
    split
    · rw [answerOf_bind, answerOf_bind, answerOf_liftExcept, answerOf_liftExcept]
      split <;> rfl
    · rfl
  | sealAs layout plaintext =>
    cases layout with
    | legacy => exact hkey rfl _ fun _ _ _ => rfl
    | nonced => cases hnonce
  | unsealAs layout data =>
    refine hkey rfl _ fun key v v' => ?_
    cases (Blob.parts layout data).decrypt key <;> rfl
  | measurement =>
    rw [evidence_of_not_needsKey henclave rfl]
    unfold Operation.conclude
    rw [answerOf_bind, answerOf_bind, answerOf_liftExcept, answerOf_liftExcept]
    cases Quote.parse (q.evidence .measurement) <;> rfl
  | deriveKey identity => exact hkey rfl _ fun _ _ _ => rfl

/-- **Two parties of the same identity answer the same**, wherever their enclaves
exist. -/
theorem answerOf_run_congr (henclave : p.enclave = q.enclave) (hidentity : p.identity = q.identity)
    (hp : p.number < w.enclaves.length) (hq : q.number < w'.enclaves.length)
    {operation : Operation} (hnonce : operation.drawsNonce = false)
    (hlimit : operation.hasPayload = true → p.maxPayload = q.maxPayload) :
    answerOf (operation.run p.certifier) w = answerOf (operation.run q.certifier) w' := by
  have hprecheck : operation.precheck p.certifier.maxPayload
      = operation.precheck q.certifier.maxPayload := Operation.precheck_congr hlimit
  rw [Operation.answerOf_run, Operation.answerOf_run, hprecheck, answerOf_session hp,
    answerOf_session hq]
  cases operation.precheck q.certifier.maxPayload with
  | error e => rfl
  | ok _ => exact answerOf_conclude_congr henclave hidentity hnonce _ _

/-- **Deriving a key answers that of the two identities**, for any measurement. -/
theorem answerOf_deriveKey (hp : p.number < w.enclaves.length) (m : Measurement) :
    answerOf (deriveKey p.certifier.channel p.certifier.requester m) w
      = .ok (MockEnclave.sealingKey p.enclave.measurement p.identity) := by
  have hsession : answerOf (p.certifier.channel.bindAndRead (.ofMeasurement m) .report 432) w
      = .ok (p.evidence (.deriveKey m)) := answerOf_session hp (.deriveKey m)
  have hneeds : (Operation.deriveKey m).needsKey = true := rfl
  rw [deriveKey_eq, answerOf_bind, hsession]
  exact p.answerOf_keyFor_evidence hneeds _

/-- **Two parties of the same identity verify alike**, if their remote verifiers
are of one mind about the quote. -/
theorem answerOf_verify_congr (henclave : p.enclave = q.enclave)
    (hp : p.number < w.enclaves.length) (hq : q.number < w'.enclaves.length)
    {userData received : Bytes} {remote remote' : RemoteVerifier (StateM Machine)}
    (hverdict : answerOf (remote.check received)
        (worldAfter (p.certifier.channel.quote (.ofClaims userData)) w)
      = answerOf (remote'.check received)
        (worldAfter (q.certifier.channel.quote (.ofClaims userData)) w')) :
    answerOf (p.certifier.verify userData received remote) w
      = answerOf (q.certifier.verify userData received remote') w' := by
  have hquoting : q.certifier.channel.Quoting p.enclave w' := by
    rw [henclave]
    exact Machine.quoting_enclaveChannel q.enclave hq
  have hp' := (Machine.quoting_enclaveChannel p.enclave hp).answerOf_verify userData received remote
  refine hp'.trans ((hquoting.answerOf_verify userData received remote').trans ?_).symm
  rcases Quote.matches_or_mismatch userData received (p.enclave.quote (.ofClaims userData))
    with hm | ⟨err, hm⟩
  · rw [Quote.matching_of_matches hm]
    dsimp only
    rw [← hverdict]
    rfl
  · rw [Quote.matching_of_mismatch hm]

/-! ## Histories -/

/-- **A use of a party's enclave**, and what may happen in between. -/
inductive Use where
  /-- An operation of the party. -/
  | operation (operation : Operation)
  /-- A write to one of the attestation files. -/
  | write (file : AttestationFile) (b : Bytes)
  /-- A read of one of them. -/
  | read (file : AttestationFile) (limit : Nat)
  /-- A whole session with report data of any kind. -/
  | session (data : ReportData) (file : AttestationFile) (limit : Nat)
  /-- Something else that changes the machine, but takes no enclave away. -/
  | elsewhere (change : Machine → Machine)
    (keeps : ∀ w, w.enclaves.length ≤ (change w).enclaves.length)

/-- The machine after a use, whether it succeeds or fails. -/
def Use.after (p : MockParty) (use : Use) (w : Machine) : Machine :=
  match use with
  | operation o => worldAfter (o.run p.certifier) w
  | write file b => worldAfter (p.certifier.channel.write file b) w
  | read file limit => worldAfter (p.certifier.channel.read file limit) w
  | session data file limit => worldAfter (p.certifier.channel.bindAndRead data file limit) w
  | elsewhere change _ => change w

/-- **The machine after a history** of uses of parties. -/
def used (history : List (MockParty × Use)) (w : Machine) : Machine :=
  history.foldl (fun w (p, use) => use.after p w) w

/-- A use takes no enclave away. -/
theorem Use.le_length_enclaves (p : MockParty) (use : Use) (w : Machine) :
    w.enclaves.length ≤ (use.after p w).enclaves.length := by
  cases use with
  | operation o => exact Nat.le_of_eq (p.keeps_run o _ w rfl).symm
  | write file b =>
    exact Nat.le_of_eq (Machine.length_enclaves_act (p.enclave.channel.write file b).run w).symm
  | read file limit =>
    exact Nat.le_of_eq (Machine.length_enclaves_act (p.enclave.channel.read file limit).run w).symm
  | session data file limit => exact Nat.le_of_eq (p.keeps_session data file limit _ w rfl).symm
  | elsewhere change keeps => exact keeps w

/-- **An enclave exists after any history.** -/
theorem lt_length_enclaves_used {i : Nat} {w : Machine} (hi : i < w.enclaves.length)
    (history : List (MockParty × Use)) : i < (used history w).enclaves.length := by
  induction history generalizing w with
  | nil => exact hi
  | cons step history ih =>
    exact ih (Nat.lt_of_lt_of_le hi (step.2.le_length_enclaves step.1 w))

/-- **Emulated enclaves forget.** Two parties of the same identity, on the same
machine or on different ones, with the same enclave, a clone or a new one, answer
the same after any two histories: every operation that draws no nonce, if it has
no payload or the limits for payloads are the same, and every verification with
remote verifiers that are of one mind about the quote.

The key that they derive is a function of the identity that their enclave
reports and of the one of their key derivation, whatever the measurement that is
passed to the derivation or to the certifier. -/
theorem answers_eq_after_histories (p q : MockParty) (w w' : Machine)
    (history history' : List (MockParty × Use)) (henclave : p.enclave = q.enclave)
    (hidentity : p.identity = q.identity) (hp : p.number < w.enclaves.length)
    (hq : q.number < w'.enclaves.length) :
    let v := used history w
    let v' := used history' w'
    (∀ operation : Operation, operation.drawsNonce = false →
        (operation.hasPayload = true → p.maxPayload = q.maxPayload) →
        answerOf (operation.run p.certifier) v = answerOf (operation.run q.certifier) v')
      ∧ (∀ (userData received : Bytes) (remote remote' : RemoteVerifier (StateM Machine)),
        answerOf (remote.check received)
            (worldAfter (p.certifier.channel.quote (.ofClaims userData)) v)
          = answerOf (remote'.check received)
            (worldAfter (q.certifier.channel.quote (.ofClaims userData)) v') →
        answerOf (p.certifier.verify userData received remote) v
          = answerOf (q.certifier.verify userData received remote') v')
      ∧ (∀ m : Measurement,
        answerOf (deriveKey p.certifier.channel p.certifier.requester m) v
            = .ok (MockEnclave.sealingKey p.enclave.measurement p.identity)
          ∧ answerOf (deriveKey q.certifier.channel q.certifier.requester m) v'
            = .ok (MockEnclave.sealingKey p.enclave.measurement p.identity))
      ∧ answerOf p.certifier.key v
        = .ok (MockEnclave.sealingKey p.enclave.measurement p.identity) := by
  intro v v'
  have hpv : p.number < v.enclaves.length := lt_length_enclaves_used hp history
  have hqv : q.number < v'.enclaves.length := lt_length_enclaves_used hq history'
  refine ⟨fun operation hnonce hlimit => ?_, fun userData received remote remote' hverdict => ?_,
    fun m => ⟨answerOf_deriveKey hpv m, ?_⟩, answerOf_deriveKey hpv p.measurement⟩
  · exact answerOf_run_congr henclave hidentity hpv hqv hnonce hlimit
  · exact answerOf_verify_congr henclave hpv hqv hverdict
  · rw [henclave, hidentity]
    exact answerOf_deriveKey hqv m

/-- A party with a history of a refused write and of a quote, and a new party of
the same identity with another measurement, after a restart. -/
theorem answers_eq_after_histories_restart :
    let p : MockParty := ⟨⟨.zero, 3⟩, 0, .zero, .zero, 16⟩
    let q : MockParty := ⟨⟨.zero, 3⟩, 1, .zero, MockEnclave.defaultMeasurement, 16⟩
    let history : List (MockParty × Use) :=
      [(p, .write .quote [1]), (p, .write .userReportData [1, 2]), (p, .operation (.attest [1]))]
    answerOf ((Operation.sealAs .legacy [1, 2, 3]).run p.certifier)
        (used history { enclaves := [.zero] })
      = answerOf ((Operation.sealAs .legacy [1, 2, 3]).run q.certifier)
        { enclaves := [.zero, .zero] }
    ∧ answerOf p.certifier.key (used history { enclaves := [.zero] })
      = answerOf (deriveKey q.certifier.channel q.certifier.requester .zero)
        { enclaves := [.zero, .zero] } := by
  intro p q history
  obtain ⟨hoperation, -, hderived, hkey⟩ := answers_eq_after_histories p q { enclaves := [.zero] }
    { enclaves := [.zero, .zero] } history [] rfl rfl Nat.one_pos (Nat.lt_succ_self 1)
  exact ⟨hoperation (.sealAs .legacy [1, 2, 3]) rfl fun _ => rfl,
    hkey.trans (hderived .zero).2.symm⟩

end MockParty

end Enclave
