import Enclave.Proofs.Command.Loading
import Enclave.Proofs.History

/-!
# Files in mock mode

In mock mode a command works with an emulated enclave, which lives beside the files of
the machine. So whatever is asked of the enclave, no file is touched
(`MockParty.keeps_files`), and up to its output a command does nothing to files but
read them: at the beginning the measurement of the enclave, and then its inputs.

The enclave is new, and all that distinguishes it is the measurement that the settings
state: `Certifier.mock_cases` says what a command finds, and
`Certifier.exists_ofSettings` that it finds it.
-/

namespace Enclave

variable {ε α β : Type}

/-! ## Programs that leave files alone -/

/-- **A program leaves files alone** if its parts do. -/
theorem sameFiles_bind {x : ExceptT ε (StateM Machine) α}
    {f : α → ExceptT ε (StateM Machine) β} {w : Machine}
    (hx : w.files.SameFiles (worldLeft x w).files)
    (hf : ∀ a, resultOf x w = .ok a →
      (worldLeft x w).files.SameFiles (worldLeft (f a) (worldLeft x w)).files) :
    w.files.SameFiles (worldLeft (x >>= f) w).files := by
  rw [worldLeft_bind]
  cases h : resultOf x w with
  | ok a => exact hx.trans (hf a h)
  | error e => exact hx

theorem sameFiles_pure (a : α) (w : Machine) :
    w.files.SameFiles (worldLeft (pure a : ExceptT ε (StateM Machine) α) w).files :=
  .refl w.files

/-- What a program keeps does not depend on how its result is packed. -/
theorem keeps_of_bind_pure {σ : Type} {P : σ → Prop} {x : ExceptT Error (StateM σ) α}
    {g : α → β} (h : Keeps P (x >>= fun a => pure (g a))) : Keeps P x := by
  intro w hw
  have hkept := h w hw
  rw [worldAfter_bind] at hkept
  cases hx : answerOf x w with
  | ok a =>
    rw [hx] at hkept
    exact hkept
  | error e =>
    rw [hx] at hkept
    exact hkept

/-! ## What is asked of an emulated enclave -/

namespace MockParty

variable (p : MockParty) (files : FileSystem)

/-- A session of a party touches no file. -/
theorem keeps_files_session (data : ReportData) (file : AttestationFile) (limit : Nat) :
    Keeps (fun w : Machine => w.files = files)
      (p.certifier.channel.bindAndRead data file limit) :=
  keeps_bindAndRead (fun _ hw => hw) (fun _ _ _ hw => hw) (fun _ _ _ hw => hw) (fun _ hw => hw)
    data file limit

/-- **No operation of a party touches a file.** -/
theorem keeps_files (operation : Operation) :
    Keeps (fun w : Machine => w.files = files) (operation.run p.certifier) :=
  compositional_keeps.run (fun data => p.keeps_files_session files data _ _)
    (fun data => p.keeps_files_session files data _ _) (fun _ _ hw => hw) (fun _ hw => hw) operation

theorem keeps_files_sealAs (layout : Layout) (plaintext : Bytes) :
    Keeps (fun w : Machine => w.files = files) (p.certifier.sealAs layout plaintext) :=
  keeps_of_bind_pure (p.keeps_files files (.sealAs layout plaintext))

theorem keeps_files_unsealAs (layout : Layout) (data : Bytes) :
    Keeps (fun w : Machine => w.files = files) (p.certifier.unsealAs layout data) :=
  keeps_of_bind_pure (p.keeps_files files (.unsealAs layout data))

/-- Nor does verifying with a remote verifier that is known by its word. -/
theorem keeps_files_verify (userData received : Bytes) (name : String)
    (verdict : Bytes → Except Error Unit) : Keeps (fun w : Machine => w.files = files)
      (p.certifier.verify userData received (.ofVerdict name verdict)) :=
  keeps_of_bind_pure (p.keeps_files files (.verify userData received name verdict))

end MockParty

/-! ## The certifier of a command -/

/-- A measurement is made from its own bytes alone. -/
theorem Measurement.eq_toBytes_of_ofBytes? {b : Bytes} {m : Measurement}
    (h : ofBytes? b = some m) : b = m.toBytes := by
  unfold ofBytes? at h
  by_cases hlength : b.length = 32
  · rw [if_pos hlength] at h
    rw [← Option.some.inj h]
    show b = (Bytes.window 32 0 b).toList
    rw [Bytes.toList_window (Nat.le_of_eq hlength.symm)]
    exact (List.take_of_length_le (Nat.le_of_eq hlength)).symm
  · rw [if_neg hlength] at h
    cases h

/-- **The party that settings ask for in mock mode**, with the measurement that they
state and with a number on the machine. -/
def Settings.party (s : Settings) (m : Measurement) (number : Nat) : MockParty :=
  ⟨{ measurement := m }, number, m, m, s.maxPayload.toNat⟩

namespace Certifier

variable {s : Settings} {w : Machine} {path : String} {m : Measurement}

/-- A measurement that was read stands in the file. -/
theorem readAll_of_measurementFile
    (h : answerOf (measurementFile Machine.host path) w = .ok m) :
    (w.files.readAll path).1 = .finished (.ok m.toBytes) := by
  unfold measurementFile at h
  rw [answerOf_bind, answerOf_lift] at h
  dsimp only at h
  have hread : ((Machine.host.readFile path).run w).1 = Machine.answered (w.files.readAll path).1 :=
    rfl
  rw [hread] at h
  cases hanswer : (w.files.readAll path).1 with
  | stalled =>
    rw [hanswer] at h
    cases h
  | finished result =>
    rw [hanswer] at h
    cases result with
    | error e => cases h
    | ok b =>
      cases hb : Measurement.ofBytes? b with
      | none =>
        dsimp only [Machine.answered] at h
        rw [hb] at h
        cases h
      | some m' =>
        dsimp only [Machine.answered] at h
        rw [hb] at h
        cases h
        rw [Measurement.eq_toBytes_of_ofBytes? hb]

/-- Reading a measurement leaves all files as they were. -/
theorem sameFiles_measurementFile (path : String) (w : Machine) :
    w.files.SameFiles (worldAfter (measurementFile Machine.host path) w).files := by
  refine sameFiles_bind (Machine.sameFiles_readFile w path) fun result _ => ?_
  cases result with
  | error e => exact .refl _
  | ok b =>
    dsimp only
    cases Measurement.ofBytes? b <;> exact .refl _

/-- Setting up an emulated enclave leaves all files as they were, and what is set up is
a party with the measurement that the settings state. -/
theorem emulated_cases (s : Settings) (w : Machine) :
    w.files.SameFiles (worldAfter (emulated Machine.host s) w).files
      ∧ ∀ c, answerOf (emulated Machine.host s) w = .ok c →
        ∃ m n, s.StatesMeasurement w.files m ∧ c = (s.party m n).certifier
          ∧ n < (worldAfter (emulated Machine.host s) w).enclaves.length := by
  have hnew (v : Machine) (reported : ReportData) :
      v.enclaves.length < (v.enclaves ++ [reported]).length := by
    rw [List.length_append]
    exact Nat.lt_succ_self _
  unfold Settings.StatesMeasurement emulated
  cases s.measurementFile with
  | none =>
    refine ⟨.refl _, fun c hc => ?_⟩
    exact ⟨_, w.enclaves.length, rfl, (Except.ok.inj hc).symm, hnew w .zero⟩
  | some path =>
    dsimp only
    refine ⟨sameFiles_bind (sameFiles_measurementFile path w) fun _ _ => .refl _, fun c hc => ?_⟩
    rw [worldAfter_bind]
    rw [answerOf_bind] at hc
    cases hm : answerOf (measurementFile Machine.host path) w with
    | error e =>
      rw [hm] at hc
      cases hc
    | ok m =>
      rw [hm] at hc
      exact ⟨m, _, readAll_of_measurementFile hm, (Except.ok.inj hc).symm, hnew _ .zero⟩

/-- **The certifier of a command in mock mode**: looking for it leaves all files as
they were, and it is that of a party with a new enclave, which has the measurement
that the settings state. -/
theorem mock_cases (hmock : s.mockSgx = true) (w : Machine) :
    w.files.SameFiles (worldAfter (ofSettings Machine.host s) w).files
      ∧ ∀ c, answerOf (ofSettings Machine.host s) w = .ok c →
        ∃ m n, s.StatesMeasurement w.files m ∧ c = (s.party m n).certifier
          ∧ n < (worldAfter (ofSettings Machine.host s) w).enclaves.length := by
  unfold ofSettings
  rw [worldAfter_bind, answerOf_liftExcept, worldAfter_liftExcept]
  simp only [answerOf_bind, answerOf_liftExcept, worldAfter_liftExcept]
  cases s.validate with
  | error e => exact ⟨.refl _, fun c hc => by cases hc⟩
  | ok _ =>
    dsimp only
    rw [if_pos hmock]
    exact emulated_cases s w

/-- **There is such a certifier** if the settings make sense and state a
measurement. -/
theorem exists_ofSettings (hmock : s.mockSgx = true) (hvalid : s.validate = .ok ())
    (hm : s.StatesMeasurement w.files m) :
    ∃ n, answerOf (ofSettings Machine.host s) w = .ok (s.party m n).certifier
      ∧ n < (worldAfter (ofSettings Machine.host s) w).enclaves.length := by
  obtain ⟨w', hanswer, hworld⟩ := exists_emulated hm
  refine ⟨w'.enclaves.length, ?_, ?_⟩
  · unfold ofSettings
    rw [answerOf_bind, answerOf_liftExcept, worldAfter_liftExcept, hvalid]
    dsimp only
    rw [if_pos hmock, hanswer]
    rfl
  · unfold ofSettings
    rw [worldAfter_bind, answerOf_liftExcept, worldAfter_liftExcept, hvalid]
    dsimp only
    rw [if_pos hmock, hworld, List.length_append]
    exact Nat.lt_succ_self _

end Certifier

end Enclave
