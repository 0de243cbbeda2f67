import Enclave.Proofs.Command.Conversion
import Enclave.Proofs.Command.VerifierChoice
import Enclave.Proofs.Sealing.RoundTrip

/-!
# Conversions in mock mode

A run in mock mode, with the measurement that its settings state, is a `MockRun`. It
comes to the operation of a party with a new enclave (`MockRun.exists_run_eq`), so that
it succeeds or fails as that operation does (`MockRun.succeeds`, `MockRun.fails`), and
all that the enclave brings along is the key of the measurement.

What such a run seals depends on the measurement alone, the nonce aside (`SealedFor`).
In a wrong layout it is not even read as sealed data, since the lengths do not fit
(`SealedFor.not_wellFramed`).
-/

namespace Enclave

/-! ## Sealed data -/

/-- **Data that was sealed for a measurement** in mock mode, from some plaintext in some
layout. -/
structure SealedFor (m : Measurement) (layout : Layout) (plaintext data : Bytes) : Prop where
  /-- It is the encryption of the plaintext under the key of the measurement. -/
  blob : ∃ blob : Blob, blob.layout = layout ∧ blob.toBytes = data
    ∧ Blob.encrypt (MockEnclave.sealingKey m m) blob.nonce plaintext = blob
  /-- The length of the plaintext can be stated. -/
  short : plaintext.length ≤ Blob.maxLength

namespace SealedFor

variable {m : Measurement} {layout layout' : Layout} {plaintext data : Bytes}

/-- **What a party has sealed** is sealed for its measurement. -/
theorem of_sealAs {s : Settings} {n : Nat} {v : Machine} (hn : n < v.enclaves.length)
    (h : answerOf ((s.party m n).certifier.sealAs layout plaintext) v = .ok data) :
    SealedFor m layout plaintext data := by
  have hkey : answerOf (s.party m n).certifier.key v = .ok (MockEnclave.sealingKey m m) :=
    MockParty.answerOf_deriveKey (p := s.party m n) hn m
  rw [Sealer.answerOf_sealAs, hkey] at h
  by_cases hlimit : plaintext.length ≤ (s.party m n).certifier.maxPayload
  case neg =>
    rw [Sealer.checkCapacity_of_lt (Nat.lt_of_not_le hlimit)] at h
    cases h
  by_cases hshort : plaintext.length ≤ Blob.maxLength
  case neg =>
    rw [Sealer.checkCapacity_of_maxLength_lt hlimit (Nat.lt_of_not_le hshort)] at h
    cases h
  rw [Sealer.checkCapacity_of_le hlimit hshort] at h
  exact ⟨⟨_, Sealer.layout_encrypt_drawn _ layout v _ plaintext, Except.ok.inj h, rfl⟩, hshort⟩

/-- Its length is that of the header and the plaintext. -/
theorem length_eq (h : SealedFor m layout plaintext data) :
    data.length = layout.headerSize + plaintext.length := by
  obtain ⟨blob, rfl, rfl, hencrypt⟩ := h.blob
  have hlength := Blob.length_ciphertext_encrypt (MockEnclave.sealingKey m m) blob.nonce plaintext
  rw [hencrypt] at hlength
  rw [Blob.length_toBytes, hlength]

/-- The length it states is that of the plaintext. -/
theorem declared_eq (h : SealedFor m layout plaintext data) :
    Blob.declared data = plaintext.length := by
  obtain ⟨blob, -, rfl, hencrypt⟩ := h.blob
  have hlength := Blob.length_ciphertext_encrypt (MockEnclave.sealingKey m m) blob.nonce plaintext
  rw [hencrypt] at hlength
  rw [Blob.declared_toBytes (hlength ▸ h.short), hlength]

theorem wellFramed (h : SealedFor m layout plaintext data) : Blob.WellFramed layout data := by
  unfold Blob.WellFramed
  rw [h.length_eq, h.declared_eq]

/-- **In the other layout the lengths do not fit.** -/
theorem not_wellFramed (h : SealedFor m layout plaintext data) (hlayout : layout' ≠ layout) :
    ¬ Blob.WellFramed layout' data := by
  have hheader : layout'.headerSize ≠ layout.headerSize := by
    cases layout with
    | legacy =>
      cases layout' with
      | legacy => exact absurd rfl hlayout
      | nonced => decide
    | nonced =>
      cases layout' with
      | legacy => decide
      | nonced => exact absurd rfl hlayout
  unfold Blob.WellFramed
  rw [h.length_eq, h.declared_eq]
  omega

variable {σ : Type} (c : Sealer (StateM σ)) (v : σ)

/-- In the other layout it is malformed, whoever unseals it. -/
theorem answerOf_unsealAs_of_ne (h : SealedFor m layout plaintext data)
    (hlayout : layout' ≠ layout) :
    ∃ fault, ∀ {σ : Type} (c : Sealer (StateM σ)) (v : σ),
      answerOf (c.unsealAs layout' data) v = .error (.malformedBlob fault) := by
  obtain ⟨fault, hparse⟩ := Blob.parse_of_not_wellFramed (h.not_wellFramed hlayout)
  refine ⟨fault, fun c v => ?_⟩
  rw [Sealer.answerOf_unsealAs, hparse]

/-- Over the limit it is too large, whoever unseals it. -/
theorem answerOf_unsealAs_of_lt (h : SealedFor m layout plaintext data)
    (hlimit : c.maxPayload < plaintext.length) :
    answerOf (c.unsealAs layout data) v
      = .error (.payloadTooLarge plaintext.length c.maxPayload) := by
  have hlength := (Blob.length_ciphertext_parts h.wellFramed).trans h.declared_eq
  rw [Sealer.answerOf_unsealAs, Blob.parse_of_wellFramed h.wellFramed]
  dsimp only
  rw [hlength, Sealer.checkCapacity_of_lt hlimit]

/-- **Within the limit it is unsealed** with the key of the measurement. -/
theorem answerOf_unsealAs (h : SealedFor m layout plaintext data)
    (hkey : answerOf c.key v = .ok (MockEnclave.sealingKey m m))
    (hlimit : plaintext.length ≤ c.maxPayload) :
    answerOf (c.unsealAs layout data) v = .ok plaintext :=
  (Sealer.answerOf_unsealAs_eq_ok_iff hkey).mpr ⟨hlimit, h.short, h.blob⟩

end SealedFor

/-! ## Runs with a measurement -/

/-- **A run in mock mode**, with the measurement that its settings state. -/
structure MockRun (environment : List (String × String)) (words : List String) (w : Machine)
    (i : Invocation) (s : Settings) (m : Measurement) : Prop where
  /-- What the command line asks for. -/
  invocation : Invocation.parse environment words = .ok i
  /-- The settings of the run. -/
  settings : resultOf (loadSettings Machine.host environment i) w = .ok s
  /-- They switch mock mode on. -/
  mock : s.mockSgx = true
  /-- The measurement that they state. -/
  measurement : s.StatesMeasurement w.files m

namespace MockRun

variable {environment : List (String × String)} {words : List String} {w : Machine}
  {i : Invocation} {s : Settings} {m : Measurement} {k : Conversion (StateM Machine)}
  {content : Bytes}

/-- Whatever its command line and its settings are, they are those. -/
theorem mockSgx (h : MockRun environment words w i s m) (i' : Invocation) (s' : Settings)
    (hi : Invocation.parse environment words = .ok i')
    (hs : resultOf (loadSettings Machine.host environment i') w = .ok s') :
    s'.mockSgx = true := by
  cases h.invocation.symm.trans hi
  cases h.settings.symm.trans hs
  exact h.mock

/-- **A run that converts a file** comes to the operation of a party with a new
enclave, on a machine with the same files. -/
theorem exists_run_eq (h : MockRun environment words w i s m)
    (hk : i.command.conversion? = some k) (hinput : w.files.Holds k.input content) :
    ∃ n v, n < v.enclaves.length ∧ w.files.SameFiles v.files
      ∧ Started Machine.host environment words w i s w
      ∧ (i.command.run Machine.host s).run w
        = ((k.operation (s.party m n).certifier content).adapt k.wording
          >>= fun (written, response) => do
            Command.writeOutput Machine.host k.output written
            return response).run v := by
  obtain ⟨file, hload⟩ := load_of_loadSettings h.settings
  have hvalid := (Settings.load_eq_ok_iff.mp hload).2
  obtain ⟨n, hc, hn⟩ := Certifier.exists_ofSettings h.mock hvalid h.measurement
  have hsame := (Certifier.mock_cases h.mock w).1
  obtain ⟨what, hinputs⟩ := Command.exists_inputs_eq hk
  refine ⟨n, _, hn, hsame, started_host_iff.mpr ⟨h.invocation, h.settings, ?_, rfl⟩, ?_⟩
  · rw [hinputs]
    intro input hmem
    rw [List.mem_singleton.mp hmem]
    exact hinput.isFile
  · rw [Command.run_eq_of_conversion? hk]
    exact Conversion.run_eq hc (hsame.holds hinput)

/-- **If its operation fails**, so does the run, and all files are as they were. -/
theorem fails (h : MockRun environment words w i s m) (hk : i.command.conversion? = some k)
    (hinput : w.files.Holds k.input content) {e : Error}
    (hanswer : ∀ n v, n < v.enclaves.length →
      answerOf (k.operation (s.party m n).certifier content) v = .error e) :
    resultOf (run Machine.host environment words) w = .error (.command (k.wording e) s i.level)
      ∧ w.files.SameFiles (worldLeft (run Machine.host environment words) w).files := by
  obtain ⟨n, v, hn, hsame, hstarted, hrun⟩ := h.exists_run_eq hk hinput
  have hfailed := hrun.trans (run_bind_of_error (run_adapt_of_error k.wording (hanswer n v hn)))
  have hresult : resultOf (i.command.run Machine.host s) w = .error (k.wording e) :=
    congrArg Prod.fst hfailed
  have hleft : worldLeft (i.command.run Machine.host s) w = _ := congrArg Prod.snd hfailed
  rw [hstarted.resultOf_run, hstarted.worldLeft_run, hresult, hleft]
  have hkept := Command.keeps_files_operation hk (s.party m n) content v.files v rfl
  exact ⟨rfl, hkept ▸ hsame⟩

/-- **If its operation succeeds**, and the output can be written, so does the run. -/
theorem succeeds (h : MockRun environment words w i s m) (hk : i.command.conversion? = some k)
    (hinput : w.files.Holds k.input content) {place : List String}
    (houtput : w.files.Receives k.output place)
    (hanswer : ∀ n v, n < v.enclaves.length →
      ∃ result, answerOf (k.operation (s.party m n).certifier content) v = .ok result) :
    ∃ n v written response, n < v.enclaves.length
      ∧ answerOf (k.operation (s.party m n).certifier content) v = .ok (written, response)
      ∧ resultOf (run Machine.host environment words) w = .ok ⟨response, s, i.level⟩
      ∧ FileSystem.WrittenAt place written w.files
        (worldLeft (run Machine.host environment words) w).files := by
  obtain ⟨n, v, hn, hsame, hstarted, hrun⟩ := h.exists_run_eq hk hinput
  obtain ⟨⟨written, response⟩, hok⟩ := hanswer n v hn
  have hkept := Command.keeps_files_operation hk (s.party m n) content v.files v rfl
  have hsame' := hkept ▸ hsame
  have hplace := houtput.of_sameFiles hsame'
  have hdone := hrun.trans ((run_bind_of_ok (run_adapt_of_ok k.wording hok)).trans
    (run_bind_of_ok (Machine.run_writeOutput hplace written)))
  have hresult : resultOf (i.command.run Machine.host s) w = .ok response :=
    congrArg Prod.fst hdone
  have hleft : worldLeft (i.command.run Machine.host s) w = _ := congrArg Prod.snd hdone
  rw [hstarted.resultOf_run, hstarted.worldLeft_run, hresult, hleft]
  exact ⟨n, v, written, response, hn, hok, rfl, (hplace.writtenAt written).of_sameFiles hsame'⟩

/-- **A run that seals within the limit** succeeds, if the output can be written. The
output gets sealed data, and the answer states the sizes. -/
theorem seals {job : SealingJob} {place : List String} (h : MockRun environment words w i s m)
    (hjob : i.command = .sealing job) (hinput : w.files.Holds job.input content)
    (houtput : w.files.Receives job.output place)
    (hlimit : content.length ≤ s.maxPayload.toNat)
    (hshort : content.length ≤ Blob.maxLength) :
    ∃ data, SealedFor m job.layout content data
      ∧ resultOf (run Machine.host environment words) w
        = .ok ⟨.sealing job.output content.length data.length job.layout, s, i.level⟩
      ∧ FileSystem.WrittenAt place data w.files
        (worldLeft (run Machine.host environment words) w).files := by
  have hk : i.command.conversion? = some (.sealing job : Conversion (StateM Machine)) := by
    rw [hjob]
    rfl
  have hsealed (n : Nat) (v : Machine) (hn : n < v.enclaves.length) :=
    Sealer.answerOf_sealAs_of_le (s := (s.party m n).certifier)
      (MockParty.answerOf_deriveKey (p := s.party m n) hn m) job.layout hlimit hshort
  have hanswer (n : Nat) (v : Machine) (hn : n < v.enclaves.length) : ∃ result,
      answerOf ((Conversion.sealing job).operation (s.party m n).certifier content) v
        = .ok result := by
    rw [Conversion.answerOf_sealing, hsealed n v hn]
    exact ⟨_, rfl⟩
  obtain ⟨n, v, data, response, hn, hok, hresult, hwritten⟩ := h.succeeds hk hinput houtput hanswer
  rw [Conversion.answerOf_sealing, hsealed n v hn] at hok
  cases hok
  exact ⟨_, .of_sealAs hn (hsealed n v hn), hresult, hwritten⟩

/-- **The flag for mock mode is enough**: with an empty settings file and nothing else to
say, a run in mock mode has all the defaults. -/
theorem of_flag {path : String} (command : Command) (hfile : w.files.Holds path [])
    (hparse : Invocation.parse [] words = .ok ⟨.info, true, some path, none, none, none, command⟩)
    (hlimit : Invocation.commandMentions command = []) :
    MockRun [] words w ⟨.info, true, some path, none, none, none, command⟩ { mockSgx := true }
      MockEnclave.defaultMeasurement := by
  refine ⟨hparse, ?_, rfl, rfl⟩
  have hmentions : Invocation.mentions ⟨.info, true, some path, none, none, none, command⟩
      = [(Setting.mockSgx.name, .bool true)] :=
    congrArg ([(Setting.mockSgx.name, Json.bool true)] ++ ·) hlimit
  rw [resultOf_loadSettings_host, hmentions, Settings.fileIn_of_holds hfile]
  rfl

end MockRun

end Enclave
