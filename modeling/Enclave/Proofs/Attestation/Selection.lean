import Enclave.Machine
import Enclave.Proofs.Outcome

/-!
# The verifier that settings select

Which verifier is used is decided in three places: settings that make no sense are
refused (`Settings.validate`), mock mode overrides what is selected
(`Settings.effectiveVerifier`), and what can be found under a name is registered
(`Registry.ofSettings`). They have to agree. The verifier that trusts every quote is
registered exactly in mock mode (`Registry.mock_mem_names_iff`), it is the effective
one exactly then (`Settings.effectiveVerifier_eq_mock_iff`), and the effective one is
always registered (`Registry.effectiveVerifier_mem_names`). What its name stands for is
`Settings.remote` (`Registry.resolve_effectiveVerifier`).
-/

namespace Enclave

variable {m : Type → Type}

namespace Settings

variable {s : Settings}

/-- **Settings make sense** exactly if the limit is one that a length field can state,
the entry point has a name, and the mock verifier is selected in mock mode alone. -/
theorem validate_eq_ok_iff :
    s.validate = .ok () ↔ (s.maxPayload ≠ 0 ∧ s.maxPayload.toNat ≤ Blob.maxLength)
      ∧ s.verifierSymbol ≠ "" ∧ (s.mockSgx = true ∨ s.verifier ≠ .mock) := by
  unfold validate
  by_cases hlimit : s.maxPayload = 0 ∨ Blob.maxLength < s.maxPayload.toNat
  · rw [if_pos (by simpa using hlimit)]
    refine ⟨nofun, fun h => ?_⟩
    rcases hlimit with hzero | hlong
    · exact absurd hzero h.1.1
    · exact absurd hlong (Nat.not_lt.mpr h.1.2)
  obtain ⟨hzero, hlong⟩ := not_or.mp hlimit
  rw [if_neg (by simpa using hlimit)]
  by_cases hsymbol : s.verifierSymbol = ""
  · rw [if_pos hsymbol]
    exact ⟨nofun, fun h => absurd hsymbol h.2.1⟩
  rw [if_neg hsymbol]
  by_cases hmock : s.mockSgx = true
  · rw [if_neg (by simp [hmock])]
    exact ⟨fun _ => ⟨⟨hzero, Nat.not_lt.mp hlong⟩, hsymbol, .inl hmock⟩, fun _ => rfl⟩
  by_cases hverifier : s.verifier = .mock
  · rw [if_pos (by simp [hmock, hverifier])]
    refine ⟨nofun, fun h => ?_⟩
    exact absurd hverifier (h.2.2.resolve_left hmock)
  · rw [if_neg (by simp [hverifier])]
    exact ⟨fun _ => ⟨⟨hzero, Nat.not_lt.mp hlong⟩, hsymbol, .inr hverifier⟩, fun _ => rfl⟩

/-- What is wrong with settings is worded as an error about settings. -/
theorem exists_config_of_validate {e : Error} (h : s.validate = .error e) :
    ∃ fault, e = .config fault := by
  unfold validate at h
  split at h
  · exact ⟨_, (Except.error.inj h).symm⟩
  · split at h
    · exact ⟨_, (Except.error.inj h).symm⟩
    · split at h
      · exact ⟨_, (Except.error.inj h).symm⟩
      · cases h

/-- **The mock verifier outside mock mode makes no sense.** -/
theorem validate_of_mock_verifier (hmock : s.mockSgx = false) (h : s.verifier = .mock) :
    ∃ fault, s.validate = .error (.config fault) := by
  cases hvalid : s.validate with
  | ok _ =>
    rcases (validate_eq_ok_iff.mp hvalid).2.2 with hon | hne
    · exact absurd (hmock.symm.trans hon) nofun
    · exact absurd h hne
  | error e =>
    obtain ⟨fault, rfl⟩ := exists_config_of_validate hvalid
    exact ⟨fault, rfl⟩

theorem effectiveVerifier_of_mockSgx (hmock : s.mockSgx = true) : s.effectiveVerifier = .mock :=
  if_pos hmock

theorem effectiveVerifier_of_not_mockSgx (hmock : s.mockSgx = false) :
    s.effectiveVerifier = s.verifier :=
  if_neg (Bool.eq_false_iff.mp hmock)

/-- **Of settings that make sense**, the mock verifier is effective in mock mode
alone. -/
theorem effectiveVerifier_eq_mock_iff (hvalid : s.validate = .ok ()) :
    s.effectiveVerifier = .mock ↔ s.mockSgx = true := by
  refine ⟨fun h => ?_, effectiveVerifier_of_mockSgx⟩
  rcases (validate_eq_ok_iff.mp hvalid).2.2 with hon | hne
  · exact hon
  · cases hmock : s.mockSgx with
    | true => rfl
    | false => exact absurd ((effectiveVerifier_of_not_mockSgx hmock).symm.trans h) hne

end Settings

/-! ## What is registered -/

namespace Registry

variable {s : Settings}

section Registered

variable [Monad m] (s : Settings) (plugins : PluginHost m) (service : CollateralService m)

/-- **What settings register**: the two real verifiers, and in mock mode also the one
that trusts every quote. -/
theorem entries_ofSettings :
    (ofSettings s plugins service).entries
      = [(VerifierKind.dcap.name, .ready (dcapOf s service)),
          (VerifierKind.dylib.name,
            .onDemand (plugins.verifier s.verifierLibrary s.verifierSymbol) none)]
        ++ if s.mockSgx then [(VerifierKind.mock.name, .ready (.mock 0))] else [] := by
  have hdcap : "dcap" < "mock" := by decide
  have hdylib : ¬ "dylib" < "dcap" ∧ "dylib" ≠ "dcap" ∧ "dylib" < "mock" := by decide
  unfold ofSettings register registerLoader
  cases s.mockSgx with
  | true => simp [insert, VerifierKind.name, hdcap, hdylib]
  | false => simp [insert, VerifierKind.name, hdylib]

theorem names_ofSettings :
    (ofSettings s plugins service).names
      = ["dcap", "dylib"] ++ if s.mockSgx then ["mock"] else [] := by
  unfold names
  rw [entries_ofSettings]
  cases s.mockSgx <;> rfl

/-- **The verifier that trusts every quote is registered in mock mode alone.** -/
theorem mock_mem_names_iff :
    "mock" ∈ (ofSettings s plugins service).names ↔ s.mockSgx = true := by
  rw [names_ofSettings]
  cases s.mockSgx <;> decide

theorem resolve_dcap :
    (ofSettings s plugins service).resolve "dcap"
      = pure (.ok (dcapOf s service), ofSettings s plugins service) := by
  unfold resolve
  rw [entries_ofSettings]
  rfl

variable {s}

/-- **The effective verifier is registered**, if the settings make sense. -/
theorem effectiveVerifier_mem_names (hvalid : s.validate = .ok ()) :
    s.effectiveVerifier.name ∈ (ofSettings s plugins service).names := by
  cases hkind : s.effectiveVerifier with
  | mock =>
    have hmock := (Settings.effectiveVerifier_eq_mock_iff hvalid).mp hkind
    exact (mock_mem_names_iff s plugins service).mpr hmock
  | dcap =>
    rw [names_ofSettings]
    exact List.mem_cons_self
  | dylib =>
    rw [names_ofSettings]
    exact List.mem_cons_of_mem _ List.mem_cons_self

/-- In mock mode, the name of the mock verifier is that of the verifier which trusts
every quote. -/
theorem resolve_mock (hmock : s.mockSgx = true) :
    (ofSettings s plugins service).resolve "mock"
      = pure (.ok (.mock 0), ofSettings s plugins service) := by
  unfold resolve
  rw [entries_ofSettings, if_pos hmock]
  rfl

end Registered

variable {σ : Type}

/-- The name of a verifier in a library stands for what its loader brings. -/
theorem resolve_dylib (s : Settings) (plugins : PluginHost (StateM σ))
    (service : CollateralService (StateM σ)) (w : σ) :
    ((ofSettings s plugins service).resolve "dylib" w).1.1
      = match (plugins.load s.verifierLibrary s.verifierSymbol w).1 with
        | .ok status => .ok (.ofStatus s.verifierLibrary status)
        | .error fault => .error (.pluginLoadFailure s.verifierLibrary fault) := by
  have hanswer : ((ofSettings s plugins service).resolve "dylib" w).1.1
      = answerOf (plugins.verifier s.verifierLibrary s.verifierSymbol) w := by
    unfold resolve
    rw [entries_ofSettings]
    change (StateT.run ((plugins.verifier s.verifierLibrary s.verifierSymbol).run >>= fun result =>
      (_ : StateM σ (Except Error (RemoteVerifier (StateM σ)) × Registry (StateM σ)))) w).1.1 = _
    rw [StateT.run_bind]
    unfold answerOf
    rcases StateT.run (plugins.verifier s.verifierLibrary s.verifierSymbol).run w
      with ⟨_ | _, _⟩ <;> rfl
  rw [hanswer]
  unfold PluginHost.verifier
  rw [answerOf_bind, answerOf_lift]
  dsimp only
  cases (plugins.load s.verifierLibrary s.verifierSymbol w).1 <;> rfl

end Registry

/-- **The verifier that settings select**, with what a library holds at the time. -/
def Settings.remote {σ : Type} (s : Settings) (plugins : PluginHost (StateM σ))
    (service : CollateralService (StateM σ)) (w : σ) :
    Except Error (RemoteVerifier (StateM σ)) :=
  match s.effectiveVerifier with
  | .mock => .ok (.mock 0)
  | .dcap => .ok (Registry.dcapOf s service)
  | .dylib =>
    match (plugins.load s.verifierLibrary s.verifierSymbol w).1 with
    | .ok status => .ok (.ofStatus s.verifierLibrary status)
    | .error fault => .error (.pluginLoadFailure s.verifierLibrary fault)

/-- **The name of the effective verifier stands for the verifier that is selected**, if
the settings make sense. -/
theorem Registry.resolve_effectiveVerifier {σ : Type} {s : Settings} (hvalid : s.validate = .ok ())
    (plugins : PluginHost (StateM σ)) (service : CollateralService (StateM σ)) (w : σ) :
    ((ofSettings s plugins service).resolve s.effectiveVerifier.name w).1.1
      = s.remote plugins service w := by
  unfold Settings.remote
  cases hkind : s.effectiveVerifier with
  | mock =>
    have hmock := (Settings.effectiveVerifier_eq_mock_iff hvalid).mp hkind
    show ((ofSettings s plugins service).resolve "mock" w).1.1 = _
    rw [resolve_mock plugins service hmock]
    rfl
  | dcap =>
    show ((ofSettings s plugins service).resolve "dcap" w).1.1 = _
    rw [resolve_dcap]
    rfl
  | dylib => exact resolve_dylib s plugins service w

end Enclave
