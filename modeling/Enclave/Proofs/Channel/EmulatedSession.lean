import Enclave.Proofs.Attestation.Decision
import Enclave.Proofs.Evidence.EmulatedEvidence

/-!
# Sessions with an emulated enclave

On an emulated enclave nothing can go wrong within a session: the write takes
all of the report data, and what is read was rendered from it. What the enclave
held before makes no difference, and what it holds afterwards is what was
written.

`Quoting` is this fact as far as attesting and verifying depend on it. It is
said of a channel in some world, so that it can be said of an emulated enclave
that is only a part of the world. Of such a channel, every quote binds what was
asked for, and a verification comes down to the decision on the received quote.
-/

namespace Enclave

/-- Report data is made from its own bytes. -/
@[simp] theorem ReportData.ofBytes?_toBytes (d : ReportData) : ofBytes? d.toBytes = some d := by
  unfold ofBytes?
  rw [if_pos d.length_toBytes]
  exact congrArg (fun v => some (mk v)) (Bytes.window_toList d.bytes)

namespace MockEnclave

variable (e : MockEnclave)

/-- **Report data is taken whole** and held from then on. -/
theorem accept_toBytes (data held : ReportData) :
    accept .userReportData data.toBytes held = (.ok 64, data) := by
  unfold accept
  rw [ReportData.ofBytes?_toBytes]

/-- **A session with an emulated enclave** answers what the enclave renders from
the report data of the session, and leaves that behind. -/
theorem run_bindAndRead (data held : ReportData) (file : AttestationFile) (limit : Nat) :
    (e.channel.bindAndRead data file limit).run held
      = (.ok ((e.render data file).take limit), data) := by
  have hanswer : answerOf (e.channel.write .userReportData data.toBytes) held = .ok 64 :=
    congrArg Prod.fst (accept_toBytes data held)
  have hworld : worldAfter (e.channel.write .userReportData data.toBytes) held = data :=
    congrArg Prod.snd (accept_toBytes data held)
  refine Prod.ext ?_ ?_
  · show answerOf (e.channel.exchange data file limit) held = _
    rw [Channel.answerOf_exchange, hanswer, hworld]
    rfl
  · show worldAfter (e.channel.exchange data file limit) held = _
    rw [Channel.worldAfter_exchange, hanswer, hworld]
    rfl

/-- A whole quote is read. -/
theorem take_quote (data : ReportData) : (e.quote data).take Quote.maxBytes = e.quote data :=
  List.take_of_length_le (e.length_render_le data .quote)

end MockEnclave

/-! ## Attesting and verifying -/

variable {σ : Type}

/-- **A channel whose quotes are those of an emulated enclave**, in a world. -/
def Channel.Quoting (ch : Channel (StateM σ)) (e : MockEnclave) (w : σ) : Prop :=
  ∀ data : ReportData, answerOf (ch.quote data) w = .ok (e.quote data)

/-- The channel of an emulated enclave is one, whatever the enclave holds. -/
theorem MockEnclave.quoting_channel (e : MockEnclave) (held : ReportData) :
    e.channel.Quoting e held := by
  intro data
  show ((e.channel.bindAndRead data .quote Quote.maxBytes).run held).1 = _
  rw [run_bindAndRead]
  exact congrArg Except.ok (e.take_quote data)

namespace Channel.Quoting

variable {ch : Channel (StateM σ)} {e : MockEnclave} {w : σ}

/-- **Attesting succeeds**, with a quote that binds the claims. -/
theorem answerOf_attest (h : ch.Quoting e w) (claims : Bytes) :
    answerOf (ch.attest claims) w = .ok (e.quote (.ofClaims claims)) :=
  h _

/-- **A verification is decided on the two quotes**, and then by the remote
verifier. -/
theorem answerOf_verify (h : ch.Quoting e w) (userData received : Bytes)
    (remote : RemoteVerifier (StateM σ)) :
    answerOf (ch.verify userData received remote) w
      = match Quote.matching (.ofClaims userData) received (e.quote (.ofClaims userData)) with
        | .error e => .error e
        | .ok quote =>
          match answerOf (remote.check quote.bytes)
            (worldAfter (ch.quote (.ofClaims userData)) w) with
          | .error e => .error e
          | .ok () => .ok quote.measurement := by
  have hverify := Channel.answerOf_verify ch userData received remote w
  rw [h] at hverify
  exact hverify

/-- **Which binding can fail.** The own quote binds the user data, so that a
binding is missed by the received quote, or it is the remote verifier that says
so. -/
theorem eq_of_answerOf_verify (h : ch.Quoting e w) {userData received : Bytes}
    {remote : RemoteVerifier (StateM σ)} {fault : BindingFault}
    (hverify : answerOf (ch.verify userData received remote) w
      = .error (.bindingMismatch fault)) :
    fault = .receivedQuote
      ∨ answerOf (remote.check received) (worldAfter (ch.quote (.ofClaims userData)) w)
        = .error (.bindingMismatch fault) := by
  rw [h.answerOf_verify] at hverify
  rcases Quote.matches_or_mismatch userData received (e.quote (.ofClaims userData))
    with hm | ⟨err, hm⟩
  · rw [Quote.matching_of_matches hm] at hverify
    dsimp only at hverify
    cases hcheck : answerOf (remote.check received)
      (worldAfter (ch.quote (.ofClaims userData)) w) with
    | error err =>
      rw [hcheck] at hverify
      cases hverify
      exact .inr rfl
    | ok _ =>
      rw [hcheck] at hverify
      cases hverify
  · rw [Quote.matching_of_mismatch hm] at hverify
    cases hverify
    cases hm with
    | ownBinding _ _ _ hown => exact absurd ((e.binds_quote_iff userData userData).mpr rfl) hown
    | receivedBinding => exact .inl rfl

end Channel.Quoting

end Enclave
