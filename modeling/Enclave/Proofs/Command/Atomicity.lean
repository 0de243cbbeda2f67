import Enclave.Proofs.Command.MockRun

/-!
# All or nothing

A run in mock mode that fails leaves all files as they were, wherever it fails, and
whatever files its paths share. One that succeeds has changed its output at most: what
stands there is what the operation made of the content that the input had before.

Runs that fail before their command only look (`run_host_cases`). Commands without
output only read (`Command.sameFiles_run`), and the others are conversions, which write
last (`Conversion.run_cases`). Together, these are the cases of a run
(`run_mock_cases`).
-/

namespace Enclave

variable {w : Machine} {s : Settings}

/-- **What a path has taken can be read there**, unless a device or a pipe took it. -/
theorem FileSystem.Delivered.holds {fs fs' : FileSystem} {path : String} {b : Bytes}
    (h : fs.Delivered path b fs') (hstreams : ¬ fs.Streams path) : fs'.Holds path b := by
  rcases h with ⟨place, hreceives, hwritten⟩ | ⟨hstreams', -⟩
  · exact hwritten.holds hreceives
  · exact absurd hstreams' hstreams

namespace Command

/-- What keeps the files, whatever they are, leaves them as they were. -/
theorem sameFiles_perform {α : Type} {x : ExceptT Error (StateM Machine) α}
    (h : ∀ files, Keeps (fun w : Machine => w.files = files) x) (w : Machine) :
    w.files.SameFiles (worldLeft (perform x) w).files := by
  have hkept : (worldLeft (perform x) w).files = w.files := h w.files w rfl
  rw [hkept]
  exact .refl _

/-- Making the certifier of a command leaves all files as they were. -/
theorem sameFiles_certifier (hmock : s.mockSgx = true) (w : Machine) :
    w.files.SameFiles (worldLeft (perform (Certifier.ofSettings Machine.host s)) w).files :=
  (Certifier.mock_cases hmock w).1

/-- **A command without output** leaves all files as they were. -/
theorem sameFiles_run (hmock : s.mockSgx = true) {command : Command}
    (h : (command.conversion? : Option (Conversion (StateM Machine))) = none) (w : Machine) :
    w.files.SameFiles (worldLeft (command.run Machine.host s) w).files := by
  cases command with
  | attest claims output => cases h
  | sealing job | unsealing job => cases h
  | measurement =>
    exact sameFiles_bind (sameFiles_certifier hmock w) fun c _ => sameFiles_pure _ _
  | verify job =>
    show w.files.SameFiles (worldLeft (runVerify Machine.host s job) w).files
    rw [runVerify_of_mockSgx Machine.host hmock job]
    refine sameFiles_bind (sameFiles_certifier hmock w) fun c hc => ?_
    obtain ⟨m, n, -, rfl, -⟩ := (Certifier.mock_cases hmock w).2 c (ok_of_adapt hc)
    refine sameFiles_bind (Machine.sameFiles_readFile _ job.userData) fun userData _ => ?_
    refine sameFiles_bind (Machine.sameFiles_readFile _ job.quote) fun quote _ => ?_
    refine sameFiles_bind (sameFiles_perform (fun files => ?_) _) fun stated _ => sameFiles_pure _ _
    exact (s.party m n).keeps_files_verify files userData quote "mock"
      (fun _ => RemoteVerifier.verdict "mock" 0)

end Command

variable {environment : List (String × String)} {words : List String}

/-- **A run in mock mode** fails and leaves all files as they were, or its command has no
output and does so too, or it is a conversion that was carried out. -/
theorem run_mock_cases
    (hmock : ∀ i s, Invocation.parse environment words = .ok i →
      resultOf (loadSettings Machine.host environment i) w = .ok s → s.mockSgx = true) :
    ((∃ e, resultOf (run Machine.host environment words) w = .error e)
        ∧ w.files.SameFiles (worldLeft (run Machine.host environment words) w).files)
      ∨ ∃ i answer, Invocation.parse environment words = .ok i
        ∧ resultOf (loadSettings Machine.host environment i) w = .ok answer.settings
        ∧ resultOf (run Machine.host environment words) w = .ok answer
        ∧ ((i.command.conversion? : Option (Conversion (StateM Machine))) = none
            ∧ w.files.SameFiles (worldLeft (run Machine.host environment words) w).files
          ∨ ∃ k content written, i.command.conversion? = some k
            ∧ k.CarriedOut answer.settings content written answer.response w
              (worldLeft (run Machine.host environment words) w)) := by
  rcases run_host_cases environment words w with ⟨hfailed, hleft⟩ | ⟨i, s, hstarted⟩
  · rw [hleft]
    exact .inl ⟨hfailed, .refl _⟩
  have hon := hmock i s hstarted.invocation hstarted.settings
  rw [hstarted.resultOf_run, hstarted.worldLeft_run]
  cases hk : (i.command.conversion? : Option (Conversion (StateM Machine))) with
  | none =>
    have hsame := Command.sameFiles_run hon hk w
    cases resultOf (i.command.run Machine.host s) w with
    | error e => exact .inl ⟨⟨_, rfl⟩, hsame⟩
    | ok response =>
      exact .inr ⟨i, _, hstarted.invocation, hstarted.settings, rfl, .inl ⟨hk, hsame⟩⟩
  | some k =>
    obtain ⟨what, hinputs⟩ := Command.exists_inputs_eq hk
    have hinput := (started_host_iff.mp hstarted).2.2.1 (what, k.input)
      (hinputs ▸ List.mem_singleton_self _)
    rw [Command.run_eq_of_conversion? hk]
    rcases Conversion.run_cases hon (Command.keeps_files_operation hk) hinput
      with ⟨e, v, hrun, hsame⟩ | ⟨content, written, response, v, hrun, hcarried⟩
    · have hresult : resultOf (k.run Machine.host s) w = .error e := congrArg Prod.fst hrun
      have hleft : worldLeft (k.run Machine.host s) w = v := congrArg Prod.snd hrun
      rw [hresult, hleft]
      exact .inl ⟨⟨_, rfl⟩, hsame⟩
    · have hresult : resultOf (k.run Machine.host s) w = .ok response := congrArg Prod.fst hrun
      have hleft : worldLeft (k.run Machine.host s) w = v := congrArg Prod.snd hrun
      rw [hresult, hleft]
      exact .inr ⟨i, _, hstarted.invocation, hstarted.settings, rfl,
        .inr ⟨k, content, written, hk, hcarried⟩⟩

/-- **Runs are all or nothing.**

In mock mode, a run that fails leaves all files as they were, whatever its paths have
in common. Of a run that succeeds, the command either has no output, and then it leaves
all files as they were, or it is a conversion. The input then had a content before the
run, what the operation made of it was written, and no other file than the output has
changed. The output can be read there afterwards, unless a device or a pipe took it.
The answer states the sizes of input and output, and of a quote the report data that
stand in what was written. -/
theorem run_all_or_nothing (environment : List (String × String)) (words : List String)
    (w : Machine)
    (hmock : ∀ i s, Invocation.parse environment words = .ok i →
      resultOf (loadSettings Machine.host environment i) w = .ok s → s.mockSgx = true) :
    let result := resultOf (run Machine.host environment words) w
    let w' := worldLeft (run Machine.host environment words) w
    (∀ e, result = .error e → w.files.SameFiles w'.files)
      ∧ ∀ answer, result = .ok answer → ∃ i, Invocation.parse environment words = .ok i
        ∧ resultOf (loadSettings Machine.host environment i) w = .ok answer.settings
        ∧ match (i.command.conversion? : Option (Conversion (StateM Machine))) with
          | none => w.files.SameFiles w'.files
          | some k => ∃ content written,
            k.CarriedOut answer.settings content written answer.response w w'
              ∧ (¬ w.files.Streams k.output → w'.files.Holds k.output written)
              ∧ answer.response.Reports k.output content written := by
  intro result w'
  rcases run_mock_cases hmock with ⟨⟨e, he⟩, hsame⟩ | ⟨i, answer, hparse, hsettings, hok, hcases⟩
  · exact ⟨fun _ _ => hsame, fun answer hanswer => absurd (he.symm.trans hanswer) nofun⟩
  refine ⟨fun e he => absurd (hok.symm.trans he) nofun, fun other hother => ?_⟩
  cases hok.symm.trans hother
  refine ⟨i, hparse, hsettings, ?_⟩
  rcases hcases with ⟨hk, hsame⟩ | ⟨k, content, written, hk, hcarried⟩
  · rw [hk]
    exact hsame
  · obtain ⟨c, -, hoperation⟩ := hcarried.answer
    rw [hk]
    exact ⟨content, written, hcarried, hcarried.output.holds,
      Command.reports_of_operation hk hoperation⟩

/-- Sealing three bytes in their own place, where one failure would take them away,
leaves the 23 bytes that it tells of. Unsealing fails there, since three bytes are no
sealed data, and leaves everything as it was. -/
theorem run_all_or_nothing_in_place :
    let words (command : String) :=
      ["--mock-sgx", "--config", "c", command, "--in", "data", "--out", "data"]
    let files := (FileSystem.initial.put ["work", "c"] (.file [])).put ["work", "data"]
      (.file [1, 2, 3])
    let w : Machine := { files }
    let result (command : String) := resultOf (run Machine.host [] (words command)) w
    let left (command : String) := worldLeft (run Machine.host [] (words command)) w
    (∃ written answer, result "seal" = .ok answer
        ∧ answer.response = .sealing "data" 3 23 .legacy
        ∧ written.length = 23 ∧ (left "seal").files.Holds "data" written)
      ∧ (∃ e, result "unseal" = .error e) ∧ w.files.SameFiles (left "unseal").files := by
  intro words files w result left
  let job : SealingJob := ⟨"data", "data", .legacy, none⟩
  have hplain : FileSystem.Plain "c" ∧ FileSystem.Plain "data" := by decide
  have hfile : w.files.Holds "c" [] := hplain.1.holds rfl
  have hinput : w.files.Holds "data" [1, 2, 3] := hplain.2.holds rfl
  have houtput : w.files.Receives "data" ["work", "data"] := hplain.2.receives (.inr ⟨_, rfl⟩)
  have hseals : MockRun [] (words "seal") w _ _ _ := .of_flag (.sealing job) hfile rfl rfl
  have hunseals : MockRun [] (words "unseal") w _ _ _ := .of_flag (.unsealing job) hfile rfl rfl
  constructor
  · obtain ⟨-, hsealed⟩ := run_all_or_nothing [] (words "seal") w hseals.mockSgx
    obtain ⟨data, hdata, hresult, -⟩ := hseals.seals rfl hinput houtput (by decide) (by decide)
    obtain ⟨i, hparse, -, hconversion⟩ := hsealed _ hresult
    cases hseals.invocation.symm.trans hparse
    obtain ⟨content, written, hcarried, hholds, hreports⟩ := hconversion
    have hlength : data.length = 23 := hdata.length_eq
    have hwritten : written.length = 23 := hreports.2.2.symm.trans hlength
    exact ⟨written, _, hresult, by rw [hlength]; rfl, hwritten, hholds houtput.not_streams⟩
  · have hmalformed (n : Nat) (v : Machine) :
        answerOf ((Conversion.unsealing job).operation
          (Settings.party { mockSgx := true } MockEnclave.defaultMeasurement n).certifier [1, 2, 3])
          v = .error (.malformedBlob (.truncated 4 3)) := by
      rw [Conversion.answerOf_unsealing, Sealer.answerOf_unsealAs]
      rfl
    obtain ⟨hfailed, -⟩ := hunseals.fails rfl hinput fun n v _ => hmalformed n v
    exact ⟨⟨_, hfailed⟩, (run_all_or_nothing [] (words "unseal") w hunseals.mockSgx).1 _ hfailed⟩

end Enclave
