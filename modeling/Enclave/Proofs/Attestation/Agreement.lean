import Enclave.Machine
import Enclave.Proofs.Channel.EmulatedSession
import Enclave.Proofs.Operation
import Enclave.Proofs.Storage.Contents

/-!
# Attester and verifier agree

One party attests claims and another one verifies the quote against user data,
both with emulated enclaves on the same machine. Whatever the enclaves hold and
whatever is done in between, the two agree: the verifier accepts exactly if the
digests of claims and user data are the same, as far as it is up to it, and then
it learns the measurement of the attester.

That the machine does not matter comes from its sessions. As long as a party's
enclave exists, its channel quotes what it is asked for
(`Machine.quoting_enclaveChannel`), and no operation takes an enclave away
(`keeps_run`). What is left is a fact about two emulated quotes
(`MockEnclave.matching_quote`), where what the one builds is read by the other.
-/

namespace Enclave

/-! ## Two emulated quotes -/

namespace MockEnclave

/-- An emulated enclave whose quotes have a supported version. -/
def IsSupported (e : MockEnclave) : Prop := e.quoteVersion = 2 ∨ e.quoteVersion = 3

variable {attester verifier : MockEnclave}

/-- A quote of an emulated enclave, as one that can be read. -/
def parsedQuote (e : MockEnclave) (data : ReportData) : Quote where
  bytes := e.quote data
  minSize := (Quote.sized_unsigned _ _).1
  maxSize := (Quote.sized_unsigned _ _).2

theorem bytes_parsedQuote (e : MockEnclave) (data : ReportData) :
    (e.parsedQuote data).bytes = e.quote data := rfl

/-- It states the measurement of the enclave. -/
theorem measurement_parsedQuote (e : MockEnclave) (data : ReportData) :
    (e.parsedQuote data).measurement = e.measurement :=
  Measurement.toBytes_inj.mp ((Quote.toBytes_measurement _).trans
    (Quote.slice_unsigned_measurement e.quoteVersion e.measurement data))

theorem supported_quote (h : attester.IsSupported) (data : ReportData) :
    Quote.Supported (attester.quote data) := by
  unfold Quote.Supported quote
  rw [Quote.versionIn_unsigned]
  exact h.imp (congrArg UInt16.toNat) (congrArg UInt16.toNat)

/-- **The decision on two emulated quotes** is that on the digests. -/
theorem matching_quote (hattester : attester.IsSupported) (hverifier : verifier.IsSupported)
    (claims userData : Bytes) :
    Quote.matching (.ofClaims userData) (attester.quote (.ofClaims claims))
        (verifier.quote (.ofClaims userData))
      = if sha256 userData = sha256 claims then .ok (attester.parsedQuote (.ofClaims claims))
        else .error (.bindingMismatch .receivedQuote) := by
  have hsized (e : MockEnclave) (data : ReportData) : Quote.Sized (e.quote data) :=
    Quote.sized_unsigned _ _
  have hown := (verifier.binds_quote_iff userData userData).mpr rfl
  have hsupported := And.intro (supported_quote hattester (.ofClaims claims))
    (supported_quote hverifier (.ofClaims userData))
  by_cases hdigest : sha256 userData = sha256 claims
  · rw [if_pos hdigest]
    exact Quote.matching_of_matches ⟨hsized _ _, hsized _ _, hsupported, hown,
      (attester.binds_quote_iff claims userData).mpr hdigest⟩
  · rw [if_neg hdigest]
    exact Quote.matching_of_mismatch (.receivedBinding (hsized _ _) (hsized _ _) hsupported hown
      (mt (attester.binds_quote_iff claims userData).mp hdigest))

end MockEnclave

/-- **Verifying a quote of an emulated enclave**: the digests decide, and then the
remote verifier. -/
theorem Channel.Quoting.answerOf_verify_quote {σ : Type} {ch : Channel (StateM σ)}
    {attester verifier : MockEnclave} {w : σ} (h : ch.Quoting verifier w)
    (hattester : attester.IsSupported) (hverifier : verifier.IsSupported) (claims userData : Bytes)
    (remote : RemoteVerifier (StateM σ)) :
    answerOf (ch.verify userData (attester.quote (.ofClaims claims)) remote) w
      = if sha256 userData = sha256 claims then
          (answerOf (remote.check (attester.quote (.ofClaims claims)))
            (worldAfter (ch.quote (.ofClaims userData)) w)).map fun _ => attester.measurement
        else .error (.bindingMismatch .receivedQuote) := by
  rw [h.answerOf_verify, MockEnclave.matching_quote hattester hverifier]
  by_cases hdigest : sha256 userData = sha256 claims
  · rw [if_pos hdigest, if_pos hdigest]
    dsimp only
    rw [MockEnclave.measurement_parsedQuote, MockEnclave.bytes_parsedQuote]
    cases answerOf (remote.check (attester.quote (.ofClaims claims)))
      (worldAfter (ch.quote (.ofClaims userData)) w) <;> rfl
  · rw [if_neg hdigest, if_neg hdigest]

/-! ## Emulated enclaves on a machine -/

namespace Machine

variable {w : Machine} {i : Nat}

/-- The channel of an emulated enclave acts on the report data that it holds. -/
theorem actsOn_enclave (hi : i < w.enclaves.length) :
    ActsOn (enclave i).act fun held => { w with enclaves := w.enclaves.set i held } := by
  intro γ x held
  have hget : (enclave i).get { w with enclaves := w.enclaves.set i held } = held := by
    show (w.enclaves.set i held).getD i .zero = held
    rw [List.getD_eq_getElem?_getD, List.getElem?_set_self hi]
    rfl
  show ((x ((enclave i).get _)).1, (enclave i).set _ (x ((enclave i).get _)).2) = _
  rw [hget]
  show (_, { w with enclaves := (w.enclaves.set i held).set i _ }) = _
  rw [List.set_set]

/-- **A session with an emulated enclave that exists** brings what the enclave
renders, whatever it held. -/
theorem answerOf_bindAndRead_enclaveChannel (e : MockEnclave) (hi : i < w.enclaves.length)
    (data : ReportData) (file : AttestationFile) (limit : Nat) :
    answerOf ((enclaveChannel e i).bindAndRead data file limit) w
      = .ok ((e.render data file).take limit) := by
  have hw : { w with enclaves := w.enclaves.set i w.enclaves[i] } = w := by
    rw [List.set_getElem_self]
  have hlift := Channel.answerOf_bindAndRead_lift e.channel data file limit
    w.enclaves[i] (actsOn_enclave hi)
  rw [hw] at hlift
  exact hlift.trans (congrArg Prod.fst (e.run_bindAndRead data _ file limit))

/-- **An emulated enclave that exists quotes what it is asked for.** -/
theorem quoting_enclaveChannel (e : MockEnclave) (hi : i < w.enclaves.length) :
    (enclaveChannel e i).Quoting e w := by
  intro data
  have hsession := answerOf_bindAndRead_enclaveChannel e hi data .quote Quote.maxBytes
  exact hsession.trans (congrArg Except.ok (e.take_quote data))

/-- No action on an emulated enclave takes one away. -/
theorem length_enclaves_act {β : Type} (x : StateM ReportData β) (w : Machine) :
    ((enclave i).act x w).2.enclaves.length = w.enclaves.length :=
  List.length_set

end Machine

/-- **A party with an emulated enclave** on a machine. Parties with the same
number share the report data that their enclaves hold. -/
structure MockParty where
  /-- The enclave of the party. -/
  enclave : MockEnclave
  /-- Where its report data is held. -/
  number : Nat
  /-- The identity of its key derivation. -/
  identity : Measurement
  /-- The measurement that its keys are scoped to. -/
  measurement : Measurement
  /-- Its limit for plaintexts. -/
  maxPayload : Nat

namespace MockParty

/-- The certifier of a party. -/
def certifier (p : MockParty) : Certifier (StateM Machine) where
  channel := Machine.enclaveChannel p.enclave p.number
  requester := .mock p.identity
  freshNonce := Machine.drawNonce
  measurement := p.measurement
  maxPayload := p.maxPayload

/-- **A party whose enclave exists** on a machine, and makes quotes of a supported
version. -/
structure Established (p : MockParty) (w : Machine) : Prop where
  /-- There is a place for its report data. -/
  exists_enclave : p.number < w.enclaves.length
  /-- The version of its quotes is 2 or 3. -/
  supported : p.enclave.IsSupported

/-- **The machine after operations of parties**, one after the other. -/
def after (history : List (MockParty × Operation)) (w : Machine) : Machine :=
  history.foldl (fun w (p, operation) => worldAfter (operation.run p.certifier) w) w

/-- A session of a party takes no enclave away. -/
theorem keeps_session (p : MockParty) (data : ReportData) (file : AttestationFile) (limit n : Nat) :
    Keeps (fun w : Machine => w.enclaves.length = n)
      (p.certifier.channel.bindAndRead data file limit) := by
  refine keeps_bindAndRead ?_ ?_ ?_ ?_ data file limit
  · exact fun w hw => (Machine.length_enclaves_act _ w).trans hw
  · exact fun file b w hw =>
      (Machine.length_enclaves_act (p.enclave.channel.write file b).run w).trans hw
  · exact fun file limit w hw =>
      (Machine.length_enclaves_act (p.enclave.channel.read file limit).run w).trans hw
  · exact fun w hw => (Machine.length_enclaves_act _ w).trans hw

/-- Nor does any operation of it. -/
theorem keeps_run (p : MockParty) (operation : Operation) (n : Nat) :
    Keeps (fun w : Machine => w.enclaves.length = n) (operation.run p.certifier) :=
  compositional_keeps.run (fun data => p.keeps_session data _ _ n)
    (fun data => p.keeps_session data _ _ n) (fun _ _ hw => hw) (fun _ hw => hw) operation

/-- A party stays established while somebody attests. -/
theorem Established.attest {p : MockParty} {w : Machine} (h : p.Established w) (q : MockParty)
    (claims : Bytes) : p.Established (worldAfter (q.certifier.attest claims) w) := by
  refine ⟨?_, h.supported⟩
  have hlength : (worldAfter (q.certifier.attest claims) w).enclaves.length = w.enclaves.length :=
    q.keeps_session (.ofClaims claims) .quote Quote.maxBytes _ w rfl
  rw [hlength]
  exact h.exists_enclave

/-- **A party stays established**, whatever anybody does. -/
theorem Established.after {p : MockParty} {w : Machine} (h : p.Established w)
    (history : List (MockParty × Operation)) : p.Established (MockParty.after history w) := by
  refine ⟨?_, h.supported⟩
  have hlength : (MockParty.after history w).enclaves.length = w.enclaves.length := by
    clear h
    induction history generalizing w with
    | nil => rfl
    | cons step history ih =>
      exact ih.trans (step.1.keeps_run step.2 w.enclaves.length w rfl)
  rw [hlength]
  exact h.exists_enclave

end MockParty

/-! ## Parties that settings ask for -/

/-- A measurement is made from its own bytes. -/
theorem Measurement.ofBytes?_toBytes (m : Measurement) : ofBytes? m.toBytes = some m := by
  unfold ofBytes?
  rw [if_pos m.length_toBytes]
  exact congrArg (fun v => some (mk v)) (Bytes.window_toList m.bytes)

/-- **The measurement of an emulated enclave as settings have it**: what is in
their file, or a fixed one if they name no file. -/
def Settings.StatesMeasurement (s : Settings) (files : FileSystem) (m : Measurement) : Prop :=
  match s.measurementFile with
  | some path => (files.readAll path).1 = .finished (.ok m.toBytes)
  | none => m = MockEnclave.defaultMeasurement

namespace Certifier

theorem answerOf_measurementFile {path : String} {w : Machine} {m : Measurement}
    (h : (w.files.readAll path).1 = .finished (.ok m.toBytes)) :
    answerOf (measurementFile Machine.host path) w = .ok m := by
  have hread : ((Machine.host.readFile path).run w).1 = .ok m.toBytes :=
    congrArg Machine.answered h
  unfold measurementFile
  rw [answerOf_bind, answerOf_lift, hread]
  dsimp only
  rw [Measurement.ofBytes?_toBytes]
  rfl

/-- An emulated enclave is set up at the end of those that exist. -/
theorem exists_emulated {s : Settings} {w : Machine} {m : Measurement}
    (hm : s.StatesMeasurement w.files m) :
    ∃ w' : Machine, answerOf (emulated Machine.host s) w = .ok (MockParty.certifier
        ⟨{ measurement := m }, w'.enclaves.length, m, m, s.maxPayload.toNat⟩)
      ∧ worldAfter (emulated Machine.host s) w
        = { w' with enclaves := w'.enclaves ++ [.zero] } := by
  unfold Settings.StatesMeasurement at hm
  unfold emulated
  cases hfile : s.measurementFile with
  | none =>
    rw [hfile] at hm
    subst hm
    exact ⟨w, rfl, rfl⟩
  | some path =>
    rw [hfile] at hm
    refine ⟨worldAfter (measurementFile Machine.host path) w, ?_, ?_⟩
    · dsimp only
      rw [answerOf_bind, answerOf_measurementFile hm]
      rfl
    · dsimp only
      rw [worldAfter_bind, answerOf_measurementFile hm]
      rfl

/-- **In mock mode settings ask for a party** with a new enclave, which has the
measurement that the settings state. -/
theorem ofSettings_of_mockSgx {s : Settings} {w : Machine} {m : Measurement}
    (hmock : s.mockSgx = true) (hvalid : s.validate = .ok ())
    (hm : s.StatesMeasurement w.files m) :
    ∃ party : MockParty, answerOf (ofSettings Machine.host s) w = .ok party.certifier
      ∧ party.Established (worldAfter (ofSettings Machine.host s) w)
      ∧ party.enclave.measurement = m ∧ party.certifier.measurement = m := by
  obtain ⟨w', hanswer, hworld⟩ := exists_emulated hm
  refine ⟨⟨{ measurement := m }, w'.enclaves.length, m, m, s.maxPayload.toNat⟩, ?_, ?_, rfl, rfl⟩
  · unfold ofSettings
    rw [answerOf_bind, answerOf_liftExcept, worldAfter_liftExcept, hvalid]
    dsimp only
    rw [if_pos hmock, hanswer]
  · unfold ofSettings
    rw [worldAfter_bind, answerOf_liftExcept, worldAfter_liftExcept, hvalid]
    dsimp only
    rw [if_pos hmock, hworld]
    exact ⟨by simp, .inr rfl⟩

end Certifier

namespace MockParty

/-- **Attester and verifier agree.** Of two parties whose enclaves exist, on the
same report data or on different, one attests claims. Whatever any parties do
then, the other one verifies the quote against user data: if the digests are the
same, the remote verifier decides, and trust in the quote is answered by the
measurement of the attester; if they differ, the received quote is at fault.

Where settings ask for mock mode, what they build is the certifier of such a
party, and its measurement is the one that verifiers learn. -/
theorem verify_attest :
    (∀ (attester verifier : MockParty) (w : Machine), attester.Established w →
      verifier.Established w → ∀ (claims userData : Bytes) (history : List (MockParty × Operation))
        (remote : RemoteVerifier (StateM Machine)),
        ∃ quote, answerOf (attester.certifier.attest claims) w = .ok quote ∧
          let w' := after history (worldAfter (attester.certifier.attest claims) w)
          answerOf (verifier.certifier.verify userData quote remote) w'
            = if sha256 userData = sha256 claims then
                (answerOf (remote.check quote) (worldAfter
                  (verifier.certifier.channel.quote (.ofClaims userData)) w')).map
                    fun _ => attester.enclave.measurement
              else .error (.bindingMismatch .receivedQuote))
      ∧ BindingFault.receivedQuote.message
        = "received quote was produced for different user data"
      ∧ ∀ (s : Settings) (w : Machine) (m : Measurement), s.mockSgx = true →
        s.validate = .ok () → s.StatesMeasurement w.files m →
        ∃ party : MockParty, answerOf (Certifier.ofSettings Machine.host s) w = .ok party.certifier
          ∧ party.Established (worldAfter (Certifier.ofSettings Machine.host s) w)
          ∧ party.enclave.measurement = party.certifier.measurement := by
  refine ⟨?_, rfl, ?_⟩
  · intro attester verifier w hattester hverifier claims userData history remote
    have hquoting := Machine.quoting_enclaveChannel attester.enclave hattester.exists_enclave
    refine ⟨attester.enclave.quote (.ofClaims claims), hquoting.answerOf_attest claims, ?_⟩
    intro w'
    have hverifier' : verifier.Established w' := (hverifier.attest attester claims).after history
    exact (Machine.quoting_enclaveChannel verifier.enclave
      hverifier'.exists_enclave).answerOf_verify_quote hattester.supported hverifier'.supported
        claims userData remote
  · intro s w m hmock hvalid hm
    obtain ⟨party, hanswer, hestablished, henclave, hcertifier⟩ :=
      Certifier.ofSettings_of_mockSgx hmock hvalid hm
    exact ⟨party, hanswer, hestablished, henclave.trans hcertifier.symm⟩

/-- Two parties that share the report data of their enclaves, with quotes of both
versions: the quote of one byte is good for this byte and for nothing else. And a party
whose measurement is in a file. -/
theorem verify_attest_shared :
    let attester : MockParty := ⟨⟨.zero, 2⟩, 0, .zero, .zero, 0⟩
    let verifier : MockParty := ⟨⟨MockEnclave.defaultMeasurement, 3⟩, 0, .zero, .zero, 0⟩
    let w : Machine := { enclaves := [.zero] }
    let history := [(verifier, Operation.attest []), (attester, .measurement)]
    let w' := after history (worldAfter (attester.certifier.attest [1]) w)
    let settings : Settings := { mockSgx := true, measurementFile := some "m" }
    let files := FileSystem.initial.put ["work", "m"] (.file (List.replicate 32 0))
    (∃ quote, answerOf (attester.certifier.attest [1]) w = .ok quote
        ∧ answerOf (verifier.certifier.verify [1] quote (.mock 0)) w' = .ok .zero
        ∧ answerOf (verifier.certifier.verify [] quote (.mock 0)) w'
          = .error (.bindingMismatch .receivedQuote))
      ∧ ∃ party : MockParty,
        answerOf (Certifier.ofSettings Machine.host settings) { files } = .ok party.certifier
          ∧ party.enclave.measurement = party.certifier.measurement := by
  intro attester verifier w history w' settings files
  have hplain : FileSystem.Plain "m" := by decide
  have hheld : files.Holds "m" Measurement.zero.toBytes := hplain.holds rfl
  have hattester : attester.Established w := ⟨Nat.one_pos, .inl rfl⟩
  have hverifier : verifier.Established w := ⟨Nat.one_pos, .inr rfl⟩
  obtain ⟨quote, hattest, hsame⟩ :=
    verify_attest.1 attester verifier w hattester hverifier [1] [1] history (.mock 0)
  obtain ⟨quote', hattest', hother⟩ :=
    verify_attest.1 attester verifier w hattester hverifier [1] [] history (.mock 0)
  cases hattest.symm.trans hattest'
  obtain ⟨party, hparty, -, hmeasurement⟩ := verify_attest.2.2 settings { files } .zero rfl rfl
    (congrArg Prod.fst hheld.readAll)
  refine ⟨⟨quote, hattest, hsame.trans ?_, hother.trans ?_⟩, party, hparty, hmeasurement⟩
  · rw [if_pos rfl]
    exact congrArg (Except.map _) (answerOf_liftExcept _ _)
  · exact if_neg (by decide +kernel)

end MockParty

end Enclave
