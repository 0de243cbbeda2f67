import Enclave.Attestation.Verify
import Enclave.Proofs.Evidence.QuoteFields
import Enclave.Proofs.Outcome

/-!
# When a quote is accepted

Verifying depends on two byte strings that nobody vouches for, the received
quote and the quote that the channel returns, on what becomes of the session
in which the latter is made, and on the word of a remote verifier. The three
answers from outside are the `Testimony` of a call.

The decision is written down twice over. `Testimony.Accepted` says in terms
of the bytes what is demanded, and `Testimony.Refused` has one rule for every
way to fail, each of which demands that all conditions before its own hold –
so its rules are the order of the checks. The two exclude each other and
leave nothing out, and `answerOf_verify_iff` says that verifying decides
exactly by them, and that the measurement it returns is the one that stands
in the received quote.
-/

namespace Enclave

/-! ## The local decision -/

namespace Quote

/-- **What is demanded of the two quotes**: sizes, versions, and that both bind
the digest of the user data. -/
structure Matches (userData received own : Bytes) : Prop where
  /-- The received quote has the size of one. -/
  receivedSized : Sized received
  /-- So has the own quote. -/
  ownSized : Sized own
  /-- Both versions are supported. -/
  supported : Supported received ∧ Supported own
  /-- The own quote shows that the digest went through the hardware. -/
  ownBinds : Binds own userData
  /-- The received quote was made for the same user data. -/
  receivedBinds : Binds received userData

/-- **The first of these demands that is not met**, as the error it gives. -/
inductive Mismatch (userData received own : Bytes) : Error → Prop where
  | receivedSize (h : ¬ Sized received) :
    Mismatch userData received own (.malformedQuote (sizeFault received))
  | ownSize (h₁ : Sized received) (h : ¬ Sized own) :
    Mismatch userData received own (.malformedQuote (sizeFault own))
  /-- The error carries both versions, whichever is at fault. -/
  | version (v v' : UInt16) (hv : v.toNat = versionIn received) (hv' : v'.toNat = versionIn own)
    (h₁ : Sized received) (h₂ : Sized own) (h : ¬ (Supported received ∧ Supported own)) :
    Mismatch userData received own (.unsupportedQuoteVersion v v')
  | ownBinding (h₁ : Sized received) (h₂ : Sized own) (h₃ : Supported received ∧ Supported own)
    (h : ¬ Binds own userData) :
    Mismatch userData received own (.bindingMismatch .ownQuote)
  | receivedBinding (h₁ : Sized received) (h₂ : Sized own)
    (h₃ : Supported received ∧ Supported own) (h₄ : Binds own userData)
    (h : ¬ Binds received userData) :
    Mismatch userData received own (.bindingMismatch .receivedQuote)

/-- Either everything is as demanded, or something is the first that is
not. -/
theorem matches_or_mismatch (userData received own : Bytes) :
    Matches userData received own ∨ ∃ e, Mismatch userData received own e := by
  by_cases h₁ : Sized received
  case neg => exact .inr ⟨_, .receivedSize h₁⟩
  by_cases h₂ : Sized own
  case neg => exact .inr ⟨_, .ownSize h₁ h₂⟩
  by_cases h₃ : Supported received ∧ Supported own
  case neg =>
    exact .inr ⟨_, .version _ _ (toNat_version ⟨received, h₁.1, h₁.2⟩)
      (toNat_version ⟨own, h₂.1, h₂.2⟩) h₁ h₂ h₃⟩
  by_cases h₄ : Binds own userData
  case neg => exact .inr ⟨_, .ownBinding h₁ h₂ h₃ h₄⟩
  by_cases h₅ : Binds received userData
  case neg => exact .inr ⟨_, .receivedBinding h₁ h₂ h₃ h₄ h₅⟩
  exact .inl ⟨h₁, h₂, h₃, h₄, h₅⟩

/-- The local decision on two quotes that can be read. -/
theorem matching_of_sized (data : ReportData) {received own : Bytes} (h₁ : Sized received)
    (h₂ : Sized own) :
    matching data received own
      = (let theirs : Quote := ⟨received, h₁.1, h₁.2⟩
        let ours : Quote := ⟨own, h₂.1, h₂.2⟩
        if !(isSupportedVersion theirs.version && isSupportedVersion ours.version) then
          .error (.unsupportedQuoteVersion theirs.version ours.version)
        else if ours.reportData ≠ data then .error (.bindingMismatch .ownQuote)
        else if theirs.reportData ≠ ours.reportData then
          .error (.bindingMismatch .receivedQuote)
        else .ok theirs) := by
  unfold matching
  rw [parse_of_sized h₁, parse_of_sized h₂]
  show (if _ then _ else _) = _
  dsimp only
  split
  · rfl
  · show (if _ then _ else _) = _
    split
    · rfl
    · show (if _ then _ else _) = _
      split <;> rfl

/-- The versions of two quotes are supported as the bytes say. -/
theorem isSupportedVersion_and_iff (theirs ours : Quote) :
    (isSupportedVersion theirs.version && isSupportedVersion ours.version) = true
      ↔ Supported theirs.bytes ∧ Supported ours.bytes := by
  rw [Bool.and_eq_true, isSupportedVersion_iff, isSupportedVersion_iff]

/-- **Where everything is as demanded, the received quote passes.** -/
theorem matching_of_matches {userData received own : Bytes}
    (h : Matches userData received own) :
    matching (.ofClaims userData) received own
      = .ok ⟨received, h.receivedSized.1, h.receivedSized.2⟩ := by
  rw [matching_of_sized _ h.receivedSized h.ownSized]
  have hv := (isSupportedVersion_and_iff ⟨received, h.receivedSized.1, h.receivedSized.2⟩
    ⟨own, h.ownSized.1, h.ownSized.2⟩).mpr h.supported
  have ho := (reportData_eq_ofClaims_iff ⟨own, h.ownSized.1, h.ownSized.2⟩ userData).mpr
    h.ownBinds
  have hr := (reportData_eq_ofClaims_iff
    ⟨received, h.receivedSized.1, h.receivedSized.2⟩ userData).mpr h.receivedBinds
  dsimp only
  rw [hv, ho, hr]
  simp

/-- **Where something is not as demanded, the first such thing is the error.** -/
theorem matching_of_mismatch {userData received own : Bytes} {e : Error}
    (h : Mismatch userData received own e) :
    matching (.ofClaims userData) received own = .error e := by
  cases h with
  | receivedSize h =>
    unfold matching
    rw [parse_of_not_sized h]
    rfl
  | ownSize h₁ h =>
    unfold matching
    rw [parse_of_sized h₁, parse_of_not_sized h]
    rfl
  | version v v' hv hv' h₁ h₂ h =>
    rw [matching_of_sized _ h₁ h₂]
    dsimp only
    rw [if_pos]
    · rw [← toNat_version ⟨received, h₁.1, h₁.2⟩, UInt16.toNat_inj] at hv
      rw [← toNat_version ⟨own, h₂.1, h₂.2⟩, UInt16.toNat_inj] at hv'
      rw [hv, hv']
    · rw [Bool.not_eq_true', ← Bool.not_eq_true, isSupportedVersion_and_iff]
      exact h
  | ownBinding h₁ h₂ h₃ h =>
    rw [matching_of_sized _ h₁ h₂]
    dsimp only
    rw [(isSupportedVersion_and_iff ⟨received, h₁.1, h₁.2⟩ ⟨own, h₂.1, h₂.2⟩).mpr h₃,
      if_neg (by decide), if_pos]
    exact (reportData_eq_ofClaims_iff ⟨own, h₂.1, h₂.2⟩ userData).not.mpr h
  | receivedBinding h₁ h₂ h₃ h₄ h =>
    rw [matching_of_sized _ h₁ h₂]
    dsimp only
    rw [(isSupportedVersion_and_iff ⟨received, h₁.1, h₁.2⟩ ⟨own, h₂.1, h₂.2⟩).mpr h₃,
      (reportData_eq_ofClaims_iff ⟨own, h₂.1, h₂.2⟩ userData).mpr h₄,
      if_neg (by decide), if_neg (fun h => h rfl), if_pos]
    exact (reportData_eq_ofClaims_iff ⟨received, h₁.1, h₁.2⟩ userData).not.mpr h

end Quote

/-! ## The whole decision -/

/-- **What a verification is told from outside.** -/
structure Testimony where
  /-- The answer to the write of the report data. -/
  written : Except Error Nat
  /-- The answer to the read of the own quote, once the write took 64 bytes. -/
  own : Except Error Bytes
  /-- The word of the remote verifier on the received quote, once the session
  is closed. -/
  verdict : Except Error Unit

/-- **The testimony of a call.** The bytes written are the digest of the user
data and 32 zeros. -/
def Channel.testimony {σ : Type} (ch : Channel (StateM σ)) (userData received : Bytes)
    (remote : RemoteVerifier (StateM σ)) (w : σ) : Testimony :=
  let bound := (sha256 userData).toList ++ List.replicate 32 0
  let opened := (ch.openSession w).2
  let wrote := worldAfter (ch.write .userReportData bound) opened
  let closed := (ch.closeSession (worldAfter (ch.read .quote 8192) wrote)).2
  { written := answerOf (ch.write .userReportData bound) opened
    own := answerOf (ch.read .quote 8192) wrote
    verdict := answerOf (remote.check received) closed }

namespace Testimony

/-- **Everything speaks for the received quote.** -/
def Accepted (userData received : Bytes) (t : Testimony) : Prop :=
  t.written = .ok 64
    ∧ (∃ own, t.own = .ok own ∧ Quote.Matches userData received own)
    ∧ t.verdict = .ok ()

/-- **The first thing that speaks against it**, as the error it gives. -/
inductive Refused (userData received : Bytes) : Testimony → Error → Prop where
  | write (e : Error) (own : Except Error Bytes) (verdict : Except Error Unit) :
    Refused userData received ⟨.error e, own, verdict⟩ e
  | shortWrite (n : Nat) (own : Except Error Bytes) (verdict : Except Error Unit) (h : n ≠ 64) :
    Refused userData received ⟨.ok n, own, verdict⟩
      (.shortTransfer .write "user_report_data" 64 n)
  | read (e : Error) (verdict : Except Error Unit) :
    Refused userData received ⟨.ok 64, .error e, verdict⟩ e
  | mismatch (own : Bytes) (verdict : Except Error Unit) (e : Error)
    (h : Quote.Mismatch userData received own e) :
    Refused userData received ⟨.ok 64, .ok own, verdict⟩ e
  | remote (own : Bytes) (e : Error) (h : Quote.Matches userData received own) :
    Refused userData received ⟨.ok 64, .ok own, .error e⟩ e

theorem accepted_or_refused (userData received : Bytes) (t : Testimony) :
    Accepted userData received t ∨ ∃ e, Refused userData received t e := by
  obtain ⟨written, own, verdict⟩ := t
  rcases written with e | n
  · exact .inr ⟨e, .write e own verdict⟩
  by_cases hn : n = 64
  case neg => exact .inr ⟨_, .shortWrite n own verdict hn⟩
  subst hn
  rcases own with e | own
  · exact .inr ⟨e, .read e verdict⟩
  rcases Quote.matches_or_mismatch userData received own with h | ⟨e, h⟩
  case inr => exact .inr ⟨e, .mismatch own verdict e h⟩
  rcases verdict with e | ⟨⟩
  · exact .inr ⟨e, .remote own e h⟩
  · exact .inl ⟨rfl, ⟨own, rfl, h⟩, rfl⟩

end Testimony

namespace Channel

variable {σ : Type}

/-- **Verifying step by step**: the own quote, the local decision, the remote
verifier, the measurement. Each step is the last one if it fails. -/
theorem answerOf_verify (ch : Channel (StateM σ)) (userData received : Bytes)
    (remote : RemoteVerifier (StateM σ)) (w : σ) :
    answerOf (ch.verify userData received remote) w
      = match answerOf (ch.quote (.ofClaims userData)) w with
        | .error e => .error e
        | .ok own =>
          match Quote.matching (.ofClaims userData) received own with
          | .error e => .error e
          | .ok quote =>
            match answerOf (remote.check quote.bytes)
              (worldAfter (ch.quote (.ofClaims userData)) w) with
            | .error e => .error e
            | .ok () => .ok quote.measurement := by
  unfold verify
  rw [answerOf_bind]
  cases answerOf (ch.quote (.ofClaims userData)) w with
  | error e => rfl
  | ok own =>
    dsimp only
    rw [answerOf_bind, answerOf_liftExcept, worldAfter_liftExcept]
    cases Quote.matching (.ofClaims userData) received own with
    | error e => rfl
    | ok quote =>
      dsimp only
      rw [answerOf_bind]
      rcases answerOf (remote.check quote.bytes)
        (worldAfter (ch.quote (.ofClaims userData)) w) with e | ⟨⟩ <;> rfl

/-- The own quote, as the testimony has it. -/
theorem answerOf_quote_ofClaims (ch : Channel (StateM σ)) (userData received : Bytes)
    (remote : RemoteVerifier (StateM σ)) (w : σ) :
    answerOf (ch.quote (.ofClaims userData)) w
      = match (ch.testimony userData received remote w).written with
        | .error e => .error e
        | .ok n =>
          if n = 64 then (ch.testimony userData received remote w).own
          else .error (.shortTransfer .write "user_report_data" 64 n) := by
  unfold testimony quote
  rw [answerOf_bindAndRead, answerOf_exchange, ReportData.toBytes_ofClaims]
  rfl

/-- The word of the remote verifier, as the testimony has it. -/
theorem verdict_testimony {ch : Channel (StateM σ)} {userData received : Bytes}
    {remote : RemoteVerifier (StateM σ)} {w : σ}
    (h : (ch.testimony userData received remote w).written = .ok 64) :
    (ch.testimony userData received remote w).verdict
      = answerOf (remote.check received) (worldAfter (ch.quote (.ofClaims userData)) w) := by
  have hw : answerOf (ch.write .userReportData ((sha256 userData).toList ++ List.replicate 32 0))
      (ch.openSession w).2 = .ok 64 := h
  unfold quote
  rw [worldAfter_bindAndRead, worldAfter_exchange, ReportData.toBytes_ofClaims, hw]
  rfl

/-- **A quote that everything speaks for is accepted**, and stands for the
measurement in it. -/
theorem answerOf_verify_of_accepted {ch : Channel (StateM σ)} {userData received : Bytes}
    {remote : RemoteVerifier (StateM σ)} {w : σ}
    (h : Testimony.Accepted userData received (ch.testimony userData received remote w)) :
    ∃ m : Measurement, answerOf (ch.verify userData received remote) w = .ok m
      ∧ m.toBytes = received.slice 112 144 := by
  obtain ⟨hw, ⟨own, ho, hm⟩, hv⟩ := h
  rw [verdict_testimony hw] at hv
  rw [answerOf_verify, answerOf_quote_ofClaims ch userData received remote, hw, ho]
  dsimp only
  rw [if_pos rfl]
  dsimp only
  rw [Quote.matching_of_matches hm]
  dsimp only
  rw [hv]
  exact ⟨_, rfl, Quote.toBytes_measurement _⟩

/-- **A quote that something speaks against is refused** with that error. -/
theorem answerOf_verify_of_refused {ch : Channel (StateM σ)} {userData received : Bytes}
    {remote : RemoteVerifier (StateM σ)} {w : σ} {e : Error}
    (h : Testimony.Refused userData received (ch.testimony userData received remote w) e) :
    answerOf (ch.verify userData received remote) w = .error e := by
  rw [answerOf_verify, answerOf_quote_ofClaims ch userData received remote]
  generalize ht : ch.testimony userData received remote w = t at h
  cases h with
  | write e own verdict => rfl
  | shortWrite n own verdict h =>
    dsimp only
    rw [if_neg h]
  | read e verdict => rfl
  | mismatch own verdict e h =>
    dsimp only
    rw [if_pos rfl]
    dsimp only
    rw [Quote.matching_of_mismatch h]
  | remote own e h =>
    have hv := verdict_testimony (congrArg Testimony.written ht)
    rw [ht] at hv
    dsimp only at hv ⊢
    rw [if_pos rfl]
    dsimp only
    rw [Quote.matching_of_matches h]
    dsimp only
    rw [← hv]

/-- **The decision of a verification.** It succeeds exactly when the session's
write took 64 bytes and a quote could be read, both quotes have the size of
one and a supported version, both bind the digest of the user data, and the
remote verifier trusts the received quote – and then it answers the
measurement in the received quote. In every other case its error is that of
the first condition that fails. -/
theorem answerOf_verify_iff (ch : Channel (StateM σ)) (userData received : Bytes)
    (remote : RemoteVerifier (StateM σ)) (w : σ) :
    (∀ m : Measurement, answerOf (ch.verify userData received remote) w = .ok m
        ↔ Testimony.Accepted userData received (ch.testimony userData received remote w)
          ∧ m.toBytes = received.slice 112 144)
      ∧ ∀ e : Error, answerOf (ch.verify userData received remote) w = .error e
        ↔ Testimony.Refused userData received (ch.testimony userData received remote w) e := by
  constructor
  · intro m
    constructor
    · intro hm
      -- a testimony that is not accepted is refused, and then there is no answer
      rcases Testimony.accepted_or_refused userData received
        (ch.testimony userData received remote w) with h | ⟨e, h⟩
      · obtain ⟨m', hm', hb⟩ := answerOf_verify_of_accepted h
        rw [hm] at hm'
        cases hm'
        exact ⟨h, hb⟩
      · rw [answerOf_verify_of_refused h] at hm
        cases hm
    · rintro ⟨h, hb⟩
      obtain ⟨m', hm', hb'⟩ := answerOf_verify_of_accepted h
      rw [hm', Measurement.toBytes_inj.mp (hb'.trans hb.symm)]
  · intro e
    refine ⟨fun he => ?_, answerOf_verify_of_refused⟩
    rcases Testimony.accepted_or_refused userData received
      (ch.testimony userData received remote w) with h | ⟨e', h⟩
    · obtain ⟨m, hm, _⟩ := answerOf_verify_of_accepted h
      rw [he] at hm
      cases hm
    · rw [answerOf_verify_of_refused h] at he
      cases he
      exact h

end Channel

end Enclave
