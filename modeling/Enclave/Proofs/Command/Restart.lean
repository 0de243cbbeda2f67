import Enclave.Proofs.Command.Persistence

/-!
# Unsealing after restarts

Every run makes an enclave of its own, and forgets it. In mock mode all that such an
enclave has is the measurement that the settings state, and the key for sealing is a
function of it. So what one run has sealed, another one unseals, on whatever machine, as
long as the measurement is the same (`SealedFor.run_unsealing`).

A run that has converted a file says so itself (`run_mock_cases`), and of sealing this
means that sealed data are in its output (`exists_sealedFor`). The rest is that the
sealed file outlives the runs in between (`LaterRuns.outlives`).
-/

namespace Enclave

/-- Settings state one measurement. -/
theorem Settings.StatesMeasurement.unique {s : Settings} {files : FileSystem} {m m' : Measurement}
    (h : s.StatesMeasurement files m) (h' : s.StatesMeasurement files m') : m = m' := by
  unfold StatesMeasurement at h h'
  cases hfile : s.measurementFile with
  | none =>
    rw [hfile] at h h'
    exact h.trans h'.symm
  | some path =>
    rw [hfile] at h h'
    have hbytes := h.symm.trans h'
    injection hbytes with hbytes
    exact Measurement.toBytes_inj.mp (Except.ok.inj hbytes)

variable {environment : List (String × String)} {words : List String} {w : Machine}
  {i : Invocation} {s : Settings} {m : Measurement} {job : SealingJob} {plaintext : Bytes}

/-- **A run that has sealed a file** leaves sealed data in its output. -/
theorem exists_sealedFor {place : List String} {answer : RunResult}
    (h : MockRun environment words w i s m) (hjob : i.command = .sealing job)
    (hinput : w.files.Holds job.input plaintext) (houtput : w.files.Receives job.output place)
    (hdone : resultOf (run Machine.host environment words) w = .ok answer) :
    ∃ data, SealedFor m job.layout plaintext data
      ∧ (worldLeft (run Machine.host environment words) w).files.Holds job.output data := by
  rcases run_mock_cases h.mockSgx with ⟨⟨e, he⟩, -⟩ | ⟨i', answer', hi, hs, -, hcases⟩
  · exact absurd (he.symm.trans hdone) nofun
  cases h.invocation.symm.trans hi
  rw [hjob] at hcases
  rcases hcases with ⟨hk, -⟩ | ⟨k, content, written, hk, hcarried⟩
  · cases hk
  cases hk
  cases hcarried.input.unique hinput
  obtain ⟨c, hc, hanswer⟩ := hcarried.answer
  have hsettings : answer'.settings = s := Except.ok.inj (hs.symm.trans h.settings)
  rw [hsettings] at hc hanswer
  obtain ⟨m', n, hm', rfl, hn⟩ := (Certifier.mock_cases h.mock w).2 c hc
  cases hm'.unique h.measurement
  obtain ⟨data, hsealed, hpacked⟩ := ok_of_resultOf_bind hanswer
  have hwritten : data = written := congrArg Prod.fst (Except.ok.inj hpacked)
  subst hwritten
  exact ⟨data, .of_sealAs hn hsealed, hcarried.output.holds houtput.not_streams⟩

/-- **Unsealing what was sealed**, on any machine with the file. The layout, the limit and
the measurement decide. -/
theorem SealedFor.run_unsealing {layout : Layout} {data : Bytes} {m' : Measurement}
    (hsealed : SealedFor m' layout plaintext data) (h : MockRun environment words w i s m)
    (hjob : i.command = .unsealing job) (hinput : w.files.Holds job.input data)
    {place : List String} (houtput : w.files.Receives job.output place) :
    let result := resultOf (run Machine.host environment words) w
    let w' := worldLeft (run Machine.host environment words) w
    (job.layout ≠ layout →
        (∃ fault, result = .error (.command (.operation (.malformedBlob fault)) s i.level))
        ∧ w.files.SameFiles w'.files)
      ∧ (job.layout = layout → s.maxPayload.toNat < plaintext.length →
        result = .error (.command
          (.operation (.payloadTooLarge plaintext.length s.maxPayload.toNat)) s i.level)
        ∧ w.files.SameFiles w'.files)
      ∧ (job.layout = layout → m = m' → plaintext.length ≤ s.maxPayload.toNat →
        result = .ok ⟨.unsealing job.output plaintext.length, s, i.level⟩
        ∧ w'.files.Holds job.output plaintext) := by
  intro result w'
  have hk : i.command.conversion? = some (.unsealing job : Conversion (StateM Machine)) := by
    rw [hjob]
    rfl
  have hoperation {r : Except Error Bytes} {n : Nat} {v : Machine}
      (hr : answerOf ((s.party m n).certifier.unsealAs job.layout data) v = r) :
      answerOf ((Conversion.unsealing job).operation (s.party m n).certifier data) v
        = r.map fun b => (b, .unsealing job.output b.length) :=
    hr ▸ Conversion.answerOf_unsealing job (s.party m n).certifier data v
  refine ⟨fun hlayout => ?_, fun hlayout hlimit => ?_, fun hlayout hm hlimit => ?_⟩
  · obtain ⟨fault, hfault⟩ := hsealed.answerOf_unsealAs_of_ne hlayout
    have hfailed := h.fails hk hinput fun n v _ => hoperation (hfault _ v)
    exact ⟨⟨fault, hfailed.1⟩, hfailed.2⟩
  · subst hlayout
    have hlarge (n : Nat) (v : Machine) :
        answerOf ((Conversion.unsealing job).operation (s.party m n).certifier data) v
          = .error (.payloadTooLarge plaintext.length s.maxPayload.toNat) :=
      hoperation (hsealed.answerOf_unsealAs_of_lt (s.party m n).certifier v hlimit)
    exact h.fails hk hinput fun n v _ => hlarge n v
  · subst hlayout hm
    have hanswer (n : Nat) (v : Machine) (hn : n < v.enclaves.length) :=
      hoperation (hsealed.answerOf_unsealAs (s.party m n).certifier v
        (MockParty.answerOf_deriveKey (p := s.party m n) hn m) hlimit)
    obtain ⟨n, v, written, response, hn, hok, hresult, hwritten⟩ :=
      h.succeeds hk hinput houtput fun n v hn => ⟨_, hanswer n v hn⟩
    cases (hanswer n v hn).symm.trans hok
    exact ⟨hresult, hwritten.holds houtput⟩

/-- **What was sealed is unsealed after restarts.**

In mock mode, a run has sealed a plaintext into a file. Then any number of runs follow,
each of them a new process on a machine that shares only the files with the others, and
none of them has its output where the sealed file or another kept path leads.

What is kept has the same content in the end. So settings are the same again, if the
paths are kept under which their file is looked for, and so is the measurement if it
has no file, or a regular one that is kept.

A run that unseals the file in the layout in which it was sealed, with the same
measurement and a limit that is large enough, succeeds, and leaves exactly the plaintext
in its output, which may be any place for a regular file. With a limit that is too small
it fails for that reason. In the other layout the file is malformed; it never counts as
tampered with. Both failures leave all files as they were. -/
theorem unseals_after_restarts {p : Bytes} {place : List String} {answer : RunResult}
    {kept : String → Prop} {files : FileSystem} (hrun : MockRun environment words w i s m)
    (hjob : i.command = .sealing job) (hinput : w.files.Holds job.input p)
    (houtput : w.files.Receives job.output place)
    (hdone : resultOf (run Machine.host environment words) w = .ok answer)
    (hkept : kept job.output)
    (hlater : LaterRuns kept (worldLeft (run Machine.host environment words) w).files files) :
    let w₁ := worldLeft (run Machine.host environment words) w
    (∀ path, kept path → files.content? path = w₁.files.content? path)
      ∧ (∀ (environment' : List (String × String)) (i' : Invocation) (v : Machine),
        v.files = files → (∀ path ∈ Settings.candidates i'.configFile, kept path) →
        resultOf (loadSettings Machine.host environment' i') v
          = resultOf (loadSettings Machine.host environment' i') w₁)
      ∧ (∀ (t : Settings) (m' : Measurement), t.StatesMeasurement w₁.files m' →
        (∀ path, t.measurementFile = some path → kept path ∧ w₁.files.isFile path = true) →
        t.StatesMeasurement files m')
      ∧ ∀ (environment' : List (String × String)) (words' : List String) (v : Machine)
        (i' : Invocation) (job' : SealingJob) (s' : Settings) (m' : Measurement)
        (place' : List String), v.files = files → MockRun environment' words' v i' s' m' →
        i'.command = .unsealing job' → job'.input = job.output →
        w.files.Receives job'.output place' →
        let result := resultOf (run Machine.host environment' words') v
        let v' := worldLeft (run Machine.host environment' words') v
        (job'.layout ≠ job.layout →
            (∃ fault, result = .error (.command (.operation (.malformedBlob fault)) s' i'.level))
            ∧ v.files.SameFiles v'.files)
          ∧ (job'.layout = job.layout → s'.maxPayload.toNat < p.length →
            result = .error (.command
              (.operation (.payloadTooLarge p.length s'.maxPayload.toNat)) s' i'.level)
            ∧ v.files.SameFiles v'.files)
          ∧ (job'.layout = job.layout → m' = m → p.length ≤ s'.maxPayload.toNat →
            result = .ok ⟨.unsealing job'.output p.length, s', i'.level⟩
            ∧ v'.files.Holds job'.output p) := by
  intro w₁
  have houtlives := hlater.outlives
  refine ⟨houtlives.content, fun environment' i' v hv => ?_, fun t m' hm' =>
    hm'.of_outlives houtlives, fun environment' words' v i' job' s' m' place' hv hrun' hjob' hin
      hout => ?_⟩
  · subst hv
    exact Settings.resultOf_loadSettings_congr houtlives environment'
  · subst hv
    obtain ⟨data, hsealed, hheld⟩ := exists_sealedFor hrun hjob hinput houtput hdone
    have hdata : v.files.Holds job'.input data := by
      rw [hin, ← FileSystem.content?_eq_some_iff, houtlives.content _ hkept]
      exact FileSystem.content?_eq_some_iff.mpr hheld
    -- the first run has written a file as well, and the places for files are the same
    have hfirst : w.files.Outlives (fun _ => False) w₁.files :=
      outlives_run hrun.mockSgx fun _ => False.elim
    have hplace := houtlives.receives (hfirst.receives hout)
    exact hsealed.run_unsealing hrun' hjob' hdata hplace

/-- Three bytes are sealed in the place where they stand. Another run seals the result
once more, to another place, and a third one unseals the three bytes. -/
theorem unseals_after_restarts_in_place :
    let files := (FileSystem.initial.put ["work", "c"] (.file [])).put ["work", "data"]
      (.file [1, 2, 3])
    let words (command output : String) :=
      ["--mock-sgx", "--config", "c", command, "--in", "data", "--out", output]
    let w₁ := worldLeft (run Machine.host [] (words "seal" "data")) { files }
    let w₂ := worldLeft (run Machine.host [] (words "seal" "copy")) { files := w₁.files }
    let w₃ := worldLeft (run Machine.host [] (words "unseal" "data")) { files := w₂.files }
    (∃ answer, resultOf (run Machine.host [] (words "seal" "data")) { files } = .ok answer)
      ∧ (∃ answer,
        resultOf (run Machine.host [] (words "seal" "copy")) { files := w₁.files } = .ok answer)
      ∧ w₃.files.Holds "data" [1, 2, 3] := by
  intro files words w₁ w₂ w₃
  let job (output : String) : SealingJob := ⟨"data", output, .legacy, none⟩
  obtain ⟨hc, hdata, hcopy⟩ : FileSystem.Plain "c" ∧ FileSystem.Plain "data"
    ∧ FileSystem.Plain "copy" := by decide
  -- the first run
  have hinput : files.Holds "data" [1, 2, 3] := hdata.holds rfl
  have houtput : files.Receives "data" ["work", "data"] := hdata.receives (.inr ⟨_, rfl⟩)
  have hfirst : MockRun [] (words "seal" "data") { files } _ _ _ :=
    .of_flag (.sealing (job "data")) (hc.holds rfl) rfl rfl
  obtain ⟨data, hsealed, hdone, hwritten⟩ :=
    hfirst.seals rfl hinput houtput (by decide) (by decide)
  -- the run in between finds the settings file as it was, and room for its output
  have hsettings : w₁.files.node? ["work", "c"] = some (.file []) :=
    ((hwritten.elsewhere ["work", "c"] (by decide)).file_iff []).mp rfl
  have hnothing : w₁.files.node? ["work", "copy"] = none :=
    (hwritten.elsewhere ["work", "copy"] (by decide)).none_iff.mp rfl
  have hroom : w₁.files.Receives "copy" ["work", "copy"] := hcopy.receives (.inl hnothing)
  have hsecond : MockRun [] (words "seal" "copy") { files := w₁.files } _ _ _ :=
    .of_flag (.sealing (job "copy")) (hc.holds hsettings) rfl rfl
  have hlength : data.length = 23 := hsealed.length_eq
  have hsmall (limit : Nat) (hlimit : 23 ≤ limit) : data.length ≤ limit := hlength ▸ hlimit
  obtain ⟨_, -, hcopied, -⟩ := hsecond.seals rfl (hdata.holds hwritten.there) hroom
    (hsmall _ (by decide)) (hsmall _ (by decide))
  let kept (path : String) := path = "c" ∨ path = "data"
  have hspares (path : String) (hpath : kept path) :
      Spares [] (words "seal" "copy") w₁.files path := by
    rcases hpath with rfl | rfl
    · exact spares_of_ne hsecond.invocation rfl hroom
        (hc.resolve .target hsettings nofun fun _ => nofun) (by decide)
    · exact spares_of_ne hsecond.invocation rfl hroom
        (hdata.resolve .target hwritten.there nofun fun _ => nofun) (by decide)
  have hlater : LaterRuns kept w₁.files w₂.files := .run .none hsecond.mockSgx hspares
  -- the last run
  obtain ⟨hcontent, -, -, hafter⟩ :=
    unseals_after_restarts hfirst rfl hinput houtput hdone (.inr rfl) hlater
  have hstill : w₂.files.Holds "c" [] := FileSystem.content?_eq_some_iff.mp
    ((hcontent "c" (.inl rfl)).trans (FileSystem.content?_eq_some_iff.mpr (hc.holds hsettings)))
  have hthird : MockRun [] (words "unseal" "data") { files := w₂.files } _ _ _ :=
    .of_flag (.unsealing (job "data")) hstill rfl rfl
  have hunsealed := (hafter [] (words "unseal" "data") { files := w₂.files } _ (job "data") _ _
    ["work", "data"] rfl hthird rfl rfl houtput).2.2 rfl rfl (by decide)
  exact ⟨⟨_, hdone⟩, ⟨_, hcopied⟩, hunsealed.2⟩

end Enclave
