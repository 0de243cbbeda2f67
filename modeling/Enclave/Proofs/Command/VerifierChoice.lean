import Enclave.Proofs.Attestation.Consultation
import Enclave.Proofs.Attestation.Selection
import Enclave.Proofs.Command.Loading
import Enclave.Proofs.Settings.Layering

/-!
# Who verifies for the command line

A verification on the command line asks the verifier that the settings of the run
select. These settings were loaded (`load_of_loadSettings`), so that they make sense,
whatever place each of them comes from, and the verifier that trusts every quote is
selected in mock mode alone.

Outside mock mode a verification can then only succeed on the word of a library, or on
collateral from a service (`Settings.Vouched`). In mock mode it is the program with the
trusting verifier, in which nothing else that selects a verifier occurs
(`Command.runVerify_of_mockSgx`).
Settings that select the trusting verifier outside mock mode come to nothing
(`Certifier.ofSettings_of_refused`).
-/

namespace Enclave

variable {σ : Type} {m : Type → Type}

/-- What succeeds with its errors worded anew does so anyway. -/
theorem ok_of_adapt {ε ε' α : Type} {f : ε → ε'} {x : ExceptT ε (StateM σ) α} {w : σ} {a : α}
    (h : resultOf (x.adapt f) w = .ok a) : resultOf x w = .ok a :=
  mapError_eq_ok_iff.mp ((resultOf_adapt f x w).symm.trans h)

/-- **The settings of a run were loaded** from the content of some file, or of none. -/
theorem load_of_loadSettings {host : Host (StateM σ)} {environment : List (String × String)}
    {i : Invocation} {w : σ} {s : Settings}
    (h : resultOf (loadSettings host environment i) w = .ok s) :
    ∃ content, Settings.load content environment i.mentions = .ok s := by
  have hload {content : Option Bytes} {v : σ}
      (h : resultOf (liftExcept (Settings.load content environment i.mentions)) v = .ok s) :
      ∃ content, Settings.load content environment i.mentions = .ok s :=
    ⟨content, (resultOf_liftExcept _ _).symm.trans h⟩
  unfold loadSettings at h
  obtain ⟨found, -, h⟩ := ok_of_resultOf_bind h
  cases found with
  | none => exact hload h
  | some path =>
    obtain ⟨read, -, h⟩ := ok_of_resultOf_bind h
    cases read with
    | ok content => exact hload h
    | error e => cases h

/-- What a run that succeeds went through. -/
theorem started_of_run {host : Host (StateM σ)} {environment : List (String × String)}
    {words : List String} {w : σ} {result : RunResult}
    (h : resultOf (run host environment words) w = .ok result) :
    ∃ i v, Started host environment words w i result.settings v
      ∧ resultOf (i.command.run host result.settings) v = .ok result.response := by
  rw [resultOf_run] at h
  split at h
  case h_1 => cases h
  case h_2 i hparse =>
    split at h
    case h_1 => cases h
    case h_2 s hsettings =>
      split at h
      case h_1 => cases h
      case h_2 v hinputs =>
        split at h
        case h_2 => cases h
        case h_1 response hresponse =>
          cases h
          exact ⟨i, v, ⟨hparse, hsettings, hinputs⟩, hresponse⟩

/-- **A trusted quote** has the word of the remote verifier. -/
theorem check_of_verify {ch : Channel (StateM σ)} {userData received : Bytes}
    {remote : RemoteVerifier (StateM σ)} {w : σ} {stated : Measurement}
    (h : answerOf (ch.verify userData received remote) w = .ok stated) :
    ∃ v, answerOf (remote.check received) v = .ok () := by
  rw [Channel.answerOf_verify] at h
  split at h
  case h_1 => cases h
  case h_2 own _ =>
    split at h
    case h_1 => cases h
    case h_2 quote hquote =>
      rw [Quote.bytes_of_matching hquote] at h
      split at h
      case h_1 => cases h
      case h_2 hcheck => exact ⟨_, hcheck⟩

/-- A status that is taken for trust is zero. -/
theorem RemoteVerifier.status_of_check {name : String} {status : Bytes → Int} {quote : Bytes}
    {w : σ}
    (h : answerOf ((RemoteVerifier.ofStatus name status : RemoteVerifier (StateM σ)).check quote) w
      = .ok ()) : status quote = 0 := by
  have hverdict := (answerOf_liftExcept _ _).symm.trans h
  unfold verdict at hverdict
  by_cases hzero : status quote = 0
  · exact hzero
  · rw [if_neg hzero] at hverdict
    cases hverdict

/-- A quote that is trusted on collateral was shown by it to be genuine. -/
theorem RemoteVerifier.genuine_of_check {service : CollateralService (StateM σ)}
    {address : String} {seconds : Nat} {quote : Bytes} {w : σ}
    (h : answerOf ((dcap service address seconds).check quote) w = .ok ()) :
    ∃ v collateral fetched time,
      service.fetch address seconds quote v = (some collateral, fetched)
        ∧ (service.now fetched).1 = some time
        ∧ service.isGenuine quote collateral time = true := by
  rw [answerOf_check_dcap] at h
  split at h
  case h_1 => cases h
  case h_2 v _ =>
    split at h
    case h_1 => cases h
    case h_2 collateral fetched hfetch =>
      split at h
      case h_1 => cases h
      case h_2 time htime =>
        split at h
        case isTrue hgenuine => exact ⟨v, collateral, fetched, time, hfetch, htime, hgenuine⟩
        case isFalse => cases h

/-- **What the word of a real verifier on a quote rests on**: the function from the library
gives it the status zero, or collateral from the service, which came in time, shows it
to be genuine. The verifier that trusts every quote has nothing to rest on. -/
def Settings.Vouched (s : Settings) (host : Host (StateM σ)) (quote : Bytes) :
    VerifierKind → Prop
  | .dylib => ∃ v status,
      (host.plugins.load s.verifierLibrary s.verifierSymbol v).1 = .ok status ∧ status quote = 0
  | .dcap => ∃ v collateral fetched time,
      host.collateral.fetch s.pccsUrl (s.ioTimeout.getD 10) quote v = (some collateral, fetched)
        ∧ (host.collateral.now fetched).1 = some time
        ∧ host.collateral.isGenuine quote collateral time = true
  | .mock => False

namespace Certifier

/-- **Settings that are refused have no certifier**, and nothing is done with them. -/
theorem ofSettings_of_refused [Monad m] [LawfulMonad m] (host : Host m) {s : Settings} {e : Error}
    (h : s.validate = .error e) : ofSettings host s = throw e := by
  unfold ofSettings
  rw [h]
  apply ExceptT.ext
  show (pure (Except.error e) >>= _ : m _) = pure (Except.error e)
  rw [pure_bind]
  rfl

/-- In mock mode, what selects a verifier has no part in the certifier. -/
theorem ofSettings_congr_of_mockSgx [Monad m] (host : Host m) {s : Settings}
    (hmock : s.mockSgx = true) (kind : VerifierKind) (library url : String) :
    ofSettings host { s with verifier := kind, verifierLibrary := library, pccsUrl := url }
      = ofSettings host s := by
  have hvalidate : Settings.validate
      { s with verifier := kind, verifierLibrary := library, pccsUrl := url } = s.validate := by
    unfold Settings.validate
    rw [hmock]
    rfl
  unfold ofSettings
  rw [hvalidate]
  dsimp only
  rw [if_pos hmock, if_pos hmock]
  rfl

end Certifier

namespace Command

/-- A command with settings that are refused does nothing. -/
theorem run_of_refused [Monad m] [LawfulMonad m] (host : Host m) {s : Settings} {e : Error}
    (h : s.validate = .error e) (command : Command) :
    command.run host s = throw (.operation e) := by
  have hcertifier {α : Type} (f : Certifier m → ExceptT CommandError m α) :
      (perform (Certifier.ofSettings host s) >>= f) = throw (.operation e) := by
    rw [Certifier.ofSettings_of_refused host h]
    apply ExceptT.ext
    show ((Except.mapError CommandError.operation <$> pure (Except.error e) : m _) >>= _)
      = pure (Except.error (CommandError.operation e))
    rw [map_pure, pure_bind]
    rfl
  cases command with
  | attest claims output => exact hcertifier _
  | verify job => exact hcertifier _
  | sealing job => exact hcertifier _
  | unsealing job => exact hcertifier _
  | measurement => exact hcertifier _

/-- **Verifying with a certain verifier**, which is said to be of some kind. -/
def verifyWith [Monad m] (host : Host m) (s : Settings) (job : VerifyJob) (kind : VerifierKind)
    (remote : RemoteVerifier m) : ExceptT CommandError m Response := do
  let certifier ← perform (Certifier.ofSettings host s)
  let userData ← readInput host job.userData
  let quote ← readInput host job.quote
  let measurement ← perform (certifier.verify userData quote remote)
  return .verify kind measurement

/-- **In mock mode every quote is trusted**, whatever else selects a verifier. -/
theorem runVerify_of_mockSgx [Monad m] [LawfulMonad m] (host : Host m) {s : Settings}
    (hmock : s.mockSgx = true) (job : VerifyJob) :
    runVerify host s job = verifyWith host s job .mock (.mock 0) := by
  unfold runVerify verifyWith
  rw [Settings.effectiveVerifier_of_mockSgx hmock]
  refine bind_congr fun certifier => ?_
  show (liftM ((Registry.ofSettings s host.plugins host.collateral).resolve "mock") >>= _) = _
  rw [Registry.resolve_mock _ _ hmock, liftM_pure, pure_bind]
  have hready (trusting : Except Error (RemoteVerifier m)) (h : trusting = .ok (.mock 0)) :
      perform (liftExcept trusting) = (pure (.mock 0) : ExceptT CommandError m _) := by
    rw [h]
    apply ExceptT.ext
    show (Except.mapError CommandError.operation <$> pure (Except.ok _) : m _) = _
    rw [map_pure]
    rfl
  dsimp only
  rw [hready _ rfl, pure_bind]

/-- **A verification that succeeds** names the effective verifier, and has the word of
the verifier that is selected on the quote in the file. -/
theorem runVerify_eq_ok {host : Host (StateM σ)} {s : Settings} {job : VerifyJob} {w : σ}
    {response : Response} (hvalid : s.validate = .ok ())
    (h : resultOf (runVerify host s job) w = .ok response) :
    ∃ stated remote quote, response = .verify s.effectiveVerifier stated
      ∧ (∃ v, s.remote host.plugins host.collateral v = .ok remote)
      ∧ (∃ v, resultOf (host.readFile job.quote) v = .ok quote)
      ∧ ∃ v, answerOf (remote.check quote) v = .ok () := by
  unfold runVerify at h
  obtain ⟨certifier, -, h⟩ := ok_of_resultOf_bind h
  obtain ⟨⟨resolved, registry⟩, hresolved, h⟩ := ok_of_resultOf_bind h
  obtain ⟨remote, hremote, h⟩ := ok_of_resultOf_bind h
  obtain ⟨userData, -, h⟩ := ok_of_resultOf_bind h
  obtain ⟨quote, hquote, h⟩ := ok_of_resultOf_bind h
  obtain ⟨stated, hstated, h⟩ := ok_of_resultOf_bind h
  cases h
  have hresolves := (answerOf_liftExcept _ _).symm.trans (ok_of_adapt hremote)
  have hselected := Registry.resolve_effectiveVerifier hvalid host.plugins host.collateral
    (worldLeft (perform (Certifier.ofSettings host s)) w)
  have hresolved := congrArg Prod.fst (Except.ok.inj hresolved)
  exact ⟨stated, remote, quote, rfl, ⟨_, hselected.symm.trans (hresolved.trans hresolves)⟩,
    ⟨_, ok_of_adapt hquote⟩, check_of_verify (ok_of_adapt hstated)⟩

/-- Outside mock mode, that word has something to rest on. -/
theorem runVerify_eq_ok_of_not_mockSgx {host : Host (StateM σ)} {s : Settings} {job : VerifyJob}
    {w : σ} {response : Response} (hvalid : s.validate = .ok ()) (hmock : s.mockSgx = false)
    (h : resultOf (runVerify host s job) w = .ok response) :
    ∃ stated quote kind, response = .verify kind stated ∧ (kind = .dylib ∨ kind = .dcap)
      ∧ (∃ v, resultOf (host.readFile job.quote) v = .ok quote)
      ∧ s.Vouched host quote kind := by
  obtain ⟨stated, remote, quote, hresponse, ⟨v, hremote⟩, hquote, u, hcheck⟩ :=
    runVerify_eq_ok hvalid h
  unfold Settings.remote at hremote
  cases hkind : s.effectiveVerifier with
  | mock =>
    have hon := (Settings.effectiveVerifier_eq_mock_iff hvalid).mp hkind
    exact absurd (hmock.symm.trans hon) nofun
  | dcap =>
    rw [hkind] at hremote hresponse
    cases hremote
    exact ⟨stated, quote, .dcap, hresponse, .inr rfl, hquote,
      RemoteVerifier.genuine_of_check hcheck⟩
  | dylib =>
    rw [hkind] at hremote hresponse
    cases hload : (host.plugins.load s.verifierLibrary s.verifierSymbol v).1 with
    | error fault =>
      rw [hload] at hremote
      cases hremote
    | ok status =>
      rw [hload] at hremote
      cases hremote
      exact ⟨stated, quote, .dylib, hresponse, .inl rfl, hquote, v, status, hload,
        RemoteVerifier.status_of_check hcheck⟩

/-- The answer of a verification is that of no other command. -/
theorem verify_of_run {host : Host (StateM σ)} {s : Settings} {command : Command} {w : σ}
    {kind : VerifierKind} {stated : Measurement}
    (h : resultOf (command.run host s) w = .ok (.verify kind stated)) :
    ∃ job, command = .verify job := by
  cases command with
  | attest claims output =>
    obtain ⟨_, -, h⟩ := ok_of_resultOf_bind h
    obtain ⟨_, -, h⟩ := ok_of_resultOf_bind h
    obtain ⟨_, -, h⟩ := ok_of_resultOf_bind h
    obtain ⟨_, -, h⟩ := ok_of_resultOf_bind h
    obtain ⟨_, -, h⟩ := ok_of_resultOf_bind h
    cases h
  | verify job => exact ⟨job, rfl⟩
  | sealing job | unsealing job =>
    obtain ⟨_, -, h⟩ := ok_of_resultOf_bind h
    obtain ⟨_, -, h⟩ := ok_of_resultOf_bind h
    obtain ⟨_, -, h⟩ := ok_of_resultOf_bind h
    obtain ⟨_, -, h⟩ := ok_of_resultOf_bind h
    cases h
  | measurement =>
    obtain ⟨_, -, h⟩ := ok_of_resultOf_bind h
    cases h

end Command

namespace Settings

/-- **What settings that select the trusting verifier outside mock mode come to**: they
are refused when they are loaded. -/
theorem load_of_mock_verifier {file : Option Bytes} {environment : List (String × String)}
    {flags : Layer} {s : Settings} (hextract : extract file environment flags = .ok s)
    {e : Error} (hrefused : s.validate = .error e) :
    load file environment flags = .error (.refused e) := by
  rw [load_eq, hextract]
  dsimp only
  rw [hrefused]

/-- A library on a machine is missing, or has no such symbol, but never lacks an entry in
the registry. -/
theorem remote_host_ne_unregistered (s : Settings) (w : Machine) (library : String)
    (names : List String) :
    s.remote Machine.host.plugins Machine.host.collateral w
      ≠ .error (.pluginLoadFailure library (.unregistered names)) := by
  have hload : (Machine.host.plugins.load s.verifierLibrary s.verifierSymbol w).1
      ≠ .error (.unregistered names) := by
    show Machine.loadSymbol w.libraries s.verifierLibrary s.verifierSymbol ≠ _
    unfold Machine.loadSymbol
    split
    · exact fun h => by cases h
    · split <;> exact fun h => by cases h
  intro h
  unfold remote at h
  cases hkind : s.effectiveVerifier with
  | mock | dcap =>
    rw [hkind] at h
    cases h
  | dylib =>
    rw [hkind] at h
    dsimp only at h
    split at h
    case h_1 => cases h
    case h_2 fault hfault =>
      cases h
      exact hload hfault

/-- **The verifier that trusts every quote is for mock mode alone.**

Of settings that were loaded, from whatever file, variables and flags, the effective
verifier is `dylib` or `dcap` outside mock mode, where `mock` is not even registered,
and it is `mock` in mock mode. In both cases its name is registered, and stands for the
verifier that the settings select; it is never one that is not registered.

A verification that succeeds outside mock mode answers `dylib` or `dcap`, and then the
word of that verifier on the quote in the file has something to rest on. In mock mode,
a verification is the program with the trusting verifier, whatever verifier, library and
service the settings select besides.

Settings that select `mock` outside mock mode are not loaded. No certifier is made from
them, and no command does anything with them; a run on a machine leaves it as it was. -/
theorem mock_verifier_only_in_mock_mode :
    (∀ (file : Option Bytes) (environment : List (String × String)) (flags : Layer)
        (s : Settings), load file environment flags = .ok s →
        (s.mockSgx = false → (s.effectiveVerifier = .dylib ∨ s.effectiveVerifier = .dcap)
          ∧ ∀ {m : Type → Type} [Monad m] (plugins : PluginHost m)
            (service : CollateralService m),
            "mock" ∉ (Registry.ofSettings s plugins service).names)
        ∧ (s.mockSgx = true → s.effectiveVerifier = .mock)
        ∧ ∀ {σ : Type} (plugins : PluginHost (StateM σ)) (service : CollateralService (StateM σ))
          (w : σ), s.effectiveVerifier.name ∈ (Registry.ofSettings s plugins service).names
          ∧ ((Registry.ofSettings s plugins service).resolve s.effectiveVerifier.name w).1.1
            = s.remote plugins service w)
      ∧ (∀ (s : Settings) (w : Machine) (library : String) (names : List String),
        s.remote Machine.host.plugins Machine.host.collateral w
          ≠ .error (.pluginLoadFailure library (.unregistered names)))
      ∧ (∀ {σ : Type} (host : Host (StateM σ)) (environment : List (String × String))
        (words : List String) (w : σ) (result : RunResult) (kind : VerifierKind)
        (stated : Measurement), resultOf (run host environment words) w = .ok result →
        result.response = .verify kind stated →
        (result.settings.mockSgx = true → kind = .mock)
        ∧ (result.settings.mockSgx = false → (kind = .dylib ∨ kind = .dcap)
          ∧ ∃ i job quote, Invocation.parse environment words = .ok i
            ∧ i.command = .verify job
            ∧ (∃ v, resultOf (host.readFile job.quote) v = .ok quote)
            ∧ result.settings.Vouched host quote kind))
      ∧ (∀ {m : Type → Type} [Monad m] [LawfulMonad m] (host : Host m) (s : Settings)
        (job : VerifyJob), s.mockSgx = true → ∀ (kind : VerifierKind) (library url : String),
        (Command.verify job).run host
            { s with verifier := kind, verifierLibrary := library, pccsUrl := url }
          = Command.verifyWith host s job .mock (.mock 0))
      ∧ (∀ (file : Option Bytes) (environment : List (String × String)) (flags : Layer)
        (s : Settings), extract file environment flags = .ok s → s.mockSgx = false →
        s.verifier = .mock →
        ∃ fault, load file environment flags = .error (.refused (.config fault))
          ∧ ∀ {m : Type → Type} [Monad m] [LawfulMonad m] (host : Host m),
            Certifier.ofSettings host s = throw (.config fault)
            ∧ ∀ command : Command, command.run host s = throw (.operation (.config fault)))
      ∧ ∀ (environment : List (String × String)) (words : List String) (w : Machine)
        (i : Invocation) (file : Option Bytes) (s : Settings),
        Invocation.parse environment words = .ok i → fileIn w.files i.configFile = .ok file →
        extract file environment i.mentions = .ok s → s.mockSgx = false → s.verifier = .mock →
        ∃ fault, resultOf (run Machine.host environment words) w
            = .error (.settings (.refused (.config fault)))
          ∧ worldLeft (run Machine.host environment words) w = w := by
  refine ⟨fun file environment flags s hload => ?_, remote_host_ne_unregistered,
    fun host environment words w result kind stated hresult hresponse => ?_,
    fun host s job hmock kind library url => ?_,
    fun file environment flags s hextract hmock hkind => ?_,
    fun environment words w i file s hparse hfile hextract hmock hkind => ?_⟩
  · have hvalid := (load_eq_ok_iff.mp hload).2
    refine ⟨fun hmock => ⟨?_, fun plugins service hmem => ?_⟩, effectiveVerifier_of_mockSgx,
      fun plugins service w => ⟨Registry.effectiveVerifier_mem_names plugins service hvalid,
        Registry.resolve_effectiveVerifier hvalid plugins service w⟩⟩
    · cases hkind : s.effectiveVerifier with
      | mock =>
        have hon := (effectiveVerifier_eq_mock_iff hvalid).mp hkind
        exact absurd (hmock.symm.trans hon) nofun
      | dcap => exact .inr rfl
      | dylib => exact .inl rfl
    · have hon := (Registry.mock_mem_names_iff s plugins service).mp hmem
      exact absurd (hmock.symm.trans hon) nofun
  · obtain ⟨i, v, hstarted, hcommand⟩ := started_of_run hresult
    rw [hresponse] at hcommand
    obtain ⟨job, hjob⟩ := Command.verify_of_run hcommand
    rw [hjob] at hcommand
    obtain ⟨content, hload⟩ := load_of_loadSettings hstarted.settings
    have hvalid := (load_eq_ok_iff.mp hload).2
    refine ⟨fun hmock => ?_, fun hmock => ?_⟩
    · obtain ⟨_, -, -, hkind, -⟩ := Command.runVerify_eq_ok hvalid hcommand
      cases hkind
      exact effectiveVerifier_of_mockSgx hmock
    · obtain ⟨_, quote, _, hkind, hreal, hquote, hvouched⟩ :=
        Command.runVerify_eq_ok_of_not_mockSgx hvalid hmock hcommand
      cases hkind
      exact ⟨hreal, i, job, quote, hstarted.invocation, hjob, hquote, hvouched⟩
  · let other : Settings := { s with verifier := kind, verifierLibrary := library, pccsUrl := url }
    have hother : other.mockSgx = true := hmock
    refine (Command.runVerify_of_mockSgx host hother job).trans ?_
    unfold Command.verifyWith
    rw [Certifier.ofSettings_congr_of_mockSgx host hmock]
  · obtain ⟨fault, hrefused⟩ := validate_of_mock_verifier hmock hkind
    exact ⟨fault, load_of_mock_verifier hextract hrefused, fun host =>
      ⟨Certifier.ofSettings_of_refused host hrefused, Command.run_of_refused host hrefused⟩⟩
  · obtain ⟨fault, hrefused⟩ := validate_of_mock_verifier hmock hkind
    have hloaded : resultOf (loadSettings Machine.host environment i) w
        = .error (.refused (.config fault)) := by
      rw [resultOf_loadSettings_host, hfile]
      exact load_of_mock_verifier hextract hrefused
    refine ⟨fault, ?_, ?_⟩
    · rw [resultOf_run, hparse]
      dsimp only
      rw [hloaded]
    · rw [worldLeft_run, hparse]
      dsimp only
      rw [hloaded, worldLeft_loadSettings_host]

/-- By default the verifier is a real one, mock mode overrides a flag for another one,
and a variable for the mock verifier alone is refused. -/
theorem mock_verifier_only_in_mock_mode_variable :
    (({} : Settings).effectiveVerifier = .dylib ∨ ({} : Settings).effectiveVerifier = .dcap)
      ∧ ({ mockSgx := true, verifier := .dcap } : Settings).effectiveVerifier = .mock
      ∧ ∃ fault, load none [("CERTIFIER_VERIFIER", "mock")] []
        = .error (.refused (.config fault)) := by
  obtain ⟨hloaded, -, -, -, hrefused, -⟩ := mock_verifier_only_in_mock_mode
  have hreal := (hloaded none [] [] {} rfl).1 rfl
  have htrusting := (hloaded none [("CERTIFIER_MOCK_SGX", "true")] [("verifier", .string "dcap")]
    { mockSgx := true, verifier := .dcap } rfl).2.1 rfl
  obtain ⟨fault, hload, -⟩ := hrefused none [("CERTIFIER_VERIFIER", "mock")] []
    { verifier := .mock } rfl rfl rfl
  exact ⟨hreal.1, htrusting, fault, hload⟩

end Settings

end Enclave
