import Enclave.Command.Run
import Enclave.Proofs.Sealing.Mistagging
import Enclave.Proofs.Sealing.RoundTrip

/-!
# Tampering as the command line reports it

A command that fails shows a chain of messages. The first of them says that
sealed data was modified exactly if this is what the enclave found out: the
message is put in front of that one failure, by the one command that unseals
(`Command.isTampered_iff`), and no other failure of a run begins with the same
words (`RunError.head_chain_iff`).

A run comes to its command through the command line, the settings and a look at
the input files (`Started`), and the command to unsealing through the certifier
that the settings ask for and the content of its input (`Unsealing`). With these, the
signal is followed from the tag of a blob to what is shown.
-/

namespace Enclave

variable {σ ε ε' α β : Type}

/-! ## Programs with errors of any type -/

/-- **The result of a program** that starts in a world, with errors of any type. For
those of the library, it is the answer, and what is left is the world after it. -/
def resultOf (x : ExceptT ε (StateM σ) α) (w : σ) : Except ε α :=
  (StateT.run (ExceptT.run x) w).1

/-- The world that such a program leaves. -/
def worldLeft (x : ExceptT ε (StateM σ) α) (w : σ) : σ :=
  (StateT.run (ExceptT.run x) w).2

/-- One program after the other. -/
theorem resultOf_bind (x : ExceptT ε (StateM σ) α) (f : α → ExceptT ε (StateM σ) β) (w : σ) :
    resultOf (x >>= f) w
      = match resultOf x w with
        | .ok a => resultOf (f a) (worldLeft x w)
        | .error e => .error e := by
  unfold resultOf worldLeft
  rw [ExceptT.run_bind, StateT.run_bind]
  rcases StateT.run (ExceptT.run x) w with ⟨_ | _, _⟩ <;> rfl

/-- An action that cannot fail in front of a program. -/
theorem resultOf_lift_bind (x : StateM σ α) (f : α → ExceptT ε (StateM σ) β) (w : σ) :
    resultOf (ExceptT.lift x >>= f) w = resultOf (f (x w).1) (x w).2 :=
  resultOf_bind _ f w

/-- A program with its errors worded anew. -/
theorem resultOf_adapt (f : ε → ε') (x : ExceptT ε (StateM σ) α) (w : σ) :
    resultOf (x.adapt f) w = (resultOf x w).mapError f := rfl

theorem worldLeft_adapt (f : ε → ε') (x : ExceptT ε (StateM σ) α) (w : σ) :
    worldLeft (x.adapt f) w = worldLeft x w := rfl

/-- What succeeds does so however its errors are worded. -/
theorem mapError_eq_ok_iff {f : ε → ε'} {r : Except ε α} {a : α} :
    r.mapError f = .ok a ↔ r = .ok a := by
  cases r with
  | ok b =>
    show (Except.ok b : Except ε' α) = .ok a ↔ _
    rw [Except.ok.injEq, Except.ok.injEq]
  | error e => exact ⟨nofun, nofun⟩

/-! ## The commands -/

namespace Command

/-- **A part of a command that never ends as tampered.** -/
def Quiet (x : ExceptT CommandError (StateM σ) α) : Prop :=
  ∀ (w : σ) (core : Error), resultOf x w ≠ .error (.tampered core)

theorem Quiet.bind {x : ExceptT CommandError (StateM σ) α}
    {f : α → ExceptT CommandError (StateM σ) β} (hx : Quiet x) (hf : ∀ a, Quiet (f a)) :
    Quiet (x >>= f) := by
  intro w core h
  rw [resultOf_bind] at h
  split at h
  case h_1 a _ => exact hf a _ _ h
  case h_2 e he =>
    cases h
    exact hx _ _ he

theorem quiet_pure (a : α) : Quiet (pure a : ExceptT CommandError (StateM σ) α) :=
  fun _ _ => nofun

/-- A part whose errors are all worded in a way that is not that of tampering. -/
theorem quiet_adapt {f : ε → CommandError} (hf : ∀ e core, f e ≠ .tampered core)
    (x : ExceptT ε (StateM σ) α) : Quiet (x.adapt f) := by
  intro w core h
  rw [resultOf_adapt] at h
  cases hx : resultOf x w with
  | ok a =>
    rw [hx] at h
    cases h
  | error e =>
    rw [hx] at h
    exact hf e core (Except.error.inj h)

theorem quiet_perform (x : ExceptT Error (StateM σ) α) : Quiet (perform x) :=
  quiet_adapt (fun _ _ h => by cases h) x

theorem quiet_readInput (host : Host (StateM σ)) (path : String) : Quiet (readInput host path) :=
  quiet_adapt (fun _ _ h => by cases h) _

theorem quiet_writeOutput (host : Host (StateM σ)) (path : String) (b : Bytes) :
    Quiet (writeOutput host path b) :=
  quiet_adapt (fun _ _ h => by cases h) _

/-- **Commands that do not unseal** never end as tampered. -/
theorem quiet_run (host : Host (StateM σ)) (s : Settings) {command : Command}
    (h : ∀ job, command ≠ .unsealing job) : Quiet (command.run host s) := by
  cases command with
  | attest claims output =>
    exact (quiet_perform _).bind fun c => (quiet_readInput host claims).bind fun content =>
      (quiet_perform _).bind fun raw => (quiet_perform _).bind fun quote =>
        (quiet_writeOutput host output raw).bind fun _ => quiet_pure _
  | verify job =>
    refine (quiet_perform _).bind fun c => Quiet.bind (fun _ _ => nofun) fun resolved => ?_
    exact (quiet_perform _).bind fun remote => (quiet_readInput host job.userData).bind fun data =>
      (quiet_readInput host job.quote).bind fun quote => (quiet_perform _).bind fun m =>
        quiet_pure _
  | sealing job =>
    exact (quiet_perform _).bind fun c => (quiet_readInput host job.input).bind fun plaintext =>
      (quiet_perform _).bind fun data => (quiet_writeOutput host job.output data).bind fun _ =>
        quiet_pure _
  | unsealing job => exact absurd rfl (h job)
  | measurement => exact (quiet_perform _).bind fun c => quiet_pure _

/-- **The end of a command as tampered** comes behind what never ends so. -/
theorem tampered_bind_iff {x : ExceptT CommandError (StateM σ) α}
    {f : α → ExceptT CommandError (StateM σ) β} (hx : Quiet x) {w : σ} {core : Error} :
    resultOf (x >>= f) w = .error (.tampered core)
      ↔ ∃ a, resultOf x w = .ok a
        ∧ resultOf (f a) (worldLeft x w) = .error (.tampered core) := by
  rw [resultOf_bind]
  cases hr : resultOf x w with
  | ok a =>
    constructor
    · exact fun h => ⟨a, rfl, h⟩
    · rintro ⟨_, hok, h⟩
      cases hok
      exact h
  | error e =>
    constructor
    · intro h
      cases h
      exact absurd hr (hx w core)
    · rintro ⟨_, hok, -⟩
      cases hok

/-- It comes in front of it as well. -/
theorem tampered_bind_iff_of_quiet {x : ExceptT CommandError (StateM σ) α}
    {f : α → ExceptT CommandError (StateM σ) β} (hf : ∀ a, Quiet (f a)) {w : σ} {core : Error} :
    resultOf (x >>= f) w = .error (.tampered core) ↔ resultOf x w = .error (.tampered core) := by
  rw [resultOf_bind]
  cases resultOf x w with
  | ok a => exact ⟨fun h => absurd h (hf a _ _), nofun⟩
  | error e =>
    dsimp only
    rw [Except.error.injEq, Except.error.injEq]

/-- Of the errors of unsealing, the evidence of tampering is told apart. -/
theorem mapError_unsealingError_iff {r : Except Error α} {core : Error} :
    r.mapError unsealingError = .error (.tampered core)
      ↔ r = .error core ∧ core.isTampering = true := by
  cases r with
  | ok a => exact ⟨nofun, fun h => absurd h.1 nofun⟩
  | error e =>
    show Except.error (unsealingError e) = _ ↔ _
    unfold unsealingError
    by_cases htampering : e.isTampering = true
    · rw [if_pos htampering, Except.error.injEq, Except.error.injEq, CommandError.tampered.injEq]
      exact ⟨fun h => ⟨h, h ▸ htampering⟩, fun h => h.1⟩
    · rw [if_neg htampering, Except.error.injEq, Except.error.injEq]
      exact ⟨nofun, fun h => absurd (h.1 ▸ h.2) htampering⟩

end Command

/-- **How an unsealing command comes to unsealing**: the settings have a
certifier, the input has a content, and a world is left for what follows. -/
structure Unsealing (host : Host (StateM σ)) (s : Settings) (job : SealingJob) (w : σ)
    (c : Certifier (StateM σ)) (data : Bytes) (v : σ) : Prop where
  /-- The certifier that the settings ask for. -/
  certifier : answerOf (Certifier.ofSettings host s) w = .ok c
  /-- The content of the input file. -/
  input : resultOf (host.readFile job.input) (worldAfter (Certifier.ofSettings host s) w)
    = .ok data
  /-- The world after both. -/
  world : v = worldLeft (host.readFile job.input) (worldAfter (Certifier.ofSettings host s) w)

namespace Command

/-- **A command ends as tampered** exactly if it is one that unseals, and this is
what unsealing answers. -/
theorem isTampered_iff (host : Host (StateM σ)) (s : Settings) (command : Command) (w : σ)
    (core : Error) :
    resultOf (command.run host s) w = .error (.tampered core)
      ↔ ∃ job c data v, command = .unsealing job ∧ Unsealing host s job w c data v
        ∧ answerOf (c.unsealAs job.layout data) v = .error core ∧ core.isTampering = true := by
  by_cases hcommand : ∃ job, command = .unsealing job
  case neg =>
    refine ⟨fun h => absurd h (quiet_run host s (not_exists.mp hcommand) w core), ?_⟩
    rintro ⟨job, -, -, -, hjob, -⟩
    exact absurd ⟨job, hjob⟩ hcommand
  obtain ⟨job, rfl⟩ := hcommand
  show resultOf (runUnsealing host s job) w = _ ↔ _
  unfold runUnsealing
  rw [tampered_bind_iff (quiet_perform _)]
  simp only [tampered_bind_iff (quiet_readInput host job.input)]
  have hwritten (b : Bytes) : Quiet (do
      writeOutput host job.output b
      return Response.unsealing job.output b.length) :=
    (quiet_writeOutput host job.output b).bind fun _ => quiet_pure _
  simp only [tampered_bind_iff_of_quiet hwritten, resultOf_adapt, mapError_unsealingError_iff,
    perform, readInput, worldLeft_adapt, mapError_eq_ok_iff]
  constructor
  · rintro ⟨c, hc, data, hdata, h⟩
    exact ⟨job, c, data, _, rfl, ⟨hc, hdata, rfl⟩, h⟩
  · rintro ⟨_, c, data, _, hjob, ⟨hc, hdata, rfl⟩, h⟩
    cases hjob
    exact ⟨c, hc, data, hdata, h⟩

end Command

/-! ## What a chain begins with -/

/-- The message that tells of tampering. -/
def tamperedContext : String := "sealed data was modified or sealed by another enclave"

/-- **A text that begins with another one.** -/
def Begins (text opening : String) : Prop := opening.toList <+: text.toList

namespace Begins

theorem refl (text : String) : Begins text text := List.prefix_rfl

/-- What a text begins with stays when something is put behind it. -/
theorem append {text opening : String} (h : Begins text opening) (rest : String) :
    Begins (text ++ rest) opening := by
  unfold Begins
  rw [String.toList_append]
  exact h.trans (List.prefix_append _ _)

/-- A text that begins in another way is another text. -/
theorem ne {text opening other : String} (h : Begins text opening)
    (hother : ¬ opening.toList <+: other.toList) : text ≠ other := by
  rintro rfl
  exact hother h

end Begins

/-- **The words that the message of a failure begins with**, whatever it tells
of. -/
def Error.opening : Error → String
  | channelUnavailable .. => "attestation channel unavailable ("
  | shortTransfer .. => "short "
  | bindingMismatch .. => "report data binding mismatch: "
  | unsupportedQuoteVersion .. => "unsupported quote version: expected "
  | authenticationFailure => "sealed blob failed authentication (corrupted or tampered)"
  | pluginLoadFailure .. => "failed to load remote verifier `"
  | pluginRejected .. => "remote verifier `"
  | malformedQuote .. => "malformed quote: "
  | malformedBlob .. => "malformed sealed blob: "
  | payloadTooLarge .. => "payload of "
  | invalidMeasurement .. => "invalid measurement: "
  | cipher .. => "cipher setup failed: "
  | config .. => "config error: "

/-- Its message begins with them. -/
theorem Error.begins_message (e : Error) : Begins e.message e.opening := by
  cases e with
  | channelUnavailable | unsupportedQuoteVersion | pluginLoadFailure | pluginRejected =>
    exact (((Begins.refl _).append _).append _).append _
  | shortTransfer =>
    exact (((((((Begins.refl _).append _).append _).append _).append _).append _).append _).append _
  | payloadTooLarge => exact ((((Begins.refl _).append _).append _).append _).append _
  | authenticationFailure => exact Begins.refl _
  | bindingMismatch | malformedQuote | malformedBlob | invalidMeasurement | cipher | config =>
    exact (Begins.refl _).append _

/-- **No failure of the library is worded as tampering is reported.** -/
theorem Error.message_ne (e : Error) : e.message ≠ tamperedContext := by
  refine e.begins_message.ne ?_
  cases e <;> (dsimp only [opening]; decide)

/-- **The first message of a command that fails** tells of tampering exactly if the
command ended as tampered. -/
theorem CommandError.head_chain_iff (e : CommandError) :
    e.chain.head? = some tamperedContext ↔ ∃ core, e = .tampered core := by
  cases e with
  | operation cause =>
    have hhead : (operation cause).chain.head? = some cause.message := rfl
    rw [hhead, Option.some.injEq]
    refine ⟨fun h => absurd h cause.message_ne, ?_⟩
    rintro ⟨core, h⟩
    cases h
  | tampered core => exact ⟨fun _ => ⟨core, rfl⟩, fun _ => rfl⟩
  | file path cause =>
    have hhead : (file path cause).chain.head?
        = some ("Failed to access `" ++ path ++ "`: " ++ cause.text) := rfl
    rw [hhead, Option.some.injEq]
    refine ⟨fun h => absurd h ?_, ?_⟩
    · exact ((((Begins.refl "Failed to access `").append _).append _).append _).ne (by decide)
    · rintro ⟨core, h⟩
      cases h

variable {wording : LayerFault → String}

/-- **No error about settings is worded as tampering is reported**, however faults are
worded. -/
theorem SettingsError.message_ne (e : SettingsError) : e.message wording ≠ tamperedContext := by
  cases e with
  | missingFile path =>
    exact (((Begins.refl "Specified file `").append path).append "` does not exist").ne (by decide)
  | undecodable fault =>
    exact ((Begins.refl "Config error: ").append (wording fault)).ne (by decide)
  | refused cause => exact cause.message_ne

theorem missingInputMessage_ne (what path : String) :
    missingInputMessage what path ≠ tamperedContext :=
  ((((Begins.refl "The ").append what).append " file does not exist: ").append path).ne (by decide)

/-- **The first message of a run that fails** tells of tampering exactly if its
command ended as tampered. -/
theorem RunError.head_chain_iff (e : RunError) :
    (e.chain wording).head? = some tamperedContext
      ↔ ∃ core s level, e = .command (.tampered core) s level := by
  -- each chain but that of a command has its own first message
  have helse {message : String} (hmessage : message ≠ tamperedContext)
      (hne : ∀ core s level, e ≠ .command (.tampered core) s level) :
      some message = some tamperedContext
        ↔ ∃ core s level, e = .command (.tampered core) s level := by
    rw [Option.some.injEq]
    constructor
    · intro h
      exact (hmessage h).elim
    · rintro ⟨core, s, level, h⟩
      exact (hne core s level h).elim
  cases e with
  | usage e =>
    constructor
    · intro h
      cases h
    · rintro ⟨core, s, level, h⟩
      cases h
  | settings e => exact helse e.message_ne fun _ _ _ h => by cases h
  | missingInput what path s level =>
    exact helse (missingInputMessage_ne what path) fun _ _ _ h => by cases h
  | command e s level =>
    show e.chain.head? = _ ↔ _
    rw [e.head_chain_iff]
    constructor
    · rintro ⟨core, rfl⟩
      exact ⟨core, s, level, rfl⟩
    · rintro ⟨core, _, _, h⟩
      cases h
      exact ⟨core, rfl⟩

/-! ## Whole runs -/

/-- **How a run comes to its command**: the command line is understood, there are
settings, no input file is missing, and a world is left for the command. -/
structure Started (host : Host (StateM σ)) (environment : List (String × String))
    (words : List String) (w : σ) (i : Invocation) (s : Settings) (v : σ) : Prop where
  /-- What the command line asks for. -/
  invocation : Invocation.parse environment words = .ok i
  /-- The settings of the run. -/
  settings : resultOf (loadSettings host environment i) w = .ok s
  /-- The input files are there, and so is the world that is left. -/
  inputs : missingInput host i.command.inputs (worldLeft (loadSettings host environment i) w)
    = (none, v)

/-- **What a run answers**: the first thing that keeps it from its command, and
else what the command answers. -/
theorem resultOf_run (host : Host (StateM σ)) (environment : List (String × String))
    (words : List String) (w : σ) :
    resultOf (run host environment words) w
      = match Invocation.parse environment words with
        | .error e => .error (.usage e)
        | .ok i =>
          match resultOf (loadSettings host environment i) w with
          | .error e => .error (.settings e)
          | .ok s =>
            match missingInput host i.command.inputs
              (worldLeft (loadSettings host environment i) w) with
            | (some (what, path), _) => .error (.missingInput what path s i.level)
            | (none, v) =>
              match resultOf (i.command.run host s) v with
              | .ok response => .ok ⟨response, s, i.level⟩
              | .error e => .error (.command e s i.level) := by
  unfold run
  cases Invocation.parse environment words with
  | error e => rfl
  | ok i =>
    dsimp only
    show resultOf ((loadSettings host environment i).adapt RunError.settings >>= _) w = _
    rw [resultOf_bind, resultOf_adapt, worldLeft_adapt]
    cases resultOf (loadSettings host environment i) w with
    | error e => rfl
    | ok s =>
      show resultOf (ExceptT.lift (missingInput host i.command.inputs) >>= _) _ = _
      rw [resultOf_lift_bind]
      rcases missingInput host i.command.inputs (worldLeft (loadSettings host environment i) w)
        with ⟨_ | ⟨what, path⟩, v⟩
      · show resultOf (ExceptT.lift (i.command.run host s).run >>= _) v = _
        rw [resultOf_lift_bind]
        dsimp only
        show resultOf (match resultOf (i.command.run host s) v with
          | .ok response => _
          | .error e => _) _ = _
        cases resultOf (i.command.run host s) v <;> rfl
      · rfl

/-- **A run that fails as its command does** is one that comes to its command. -/
theorem resultOf_run_eq_command_iff {host : Host (StateM σ)}
    {environment : List (String × String)} {words : List String} {w : σ} {e : CommandError} :
    (∃ s level, resultOf (run host environment words) w = .error (.command e s level))
      ↔ ∃ i s v, Started host environment words w i s v
        ∧ resultOf (i.command.run host s) v = .error e := by
  rw [resultOf_run]
  constructor
  · rintro ⟨s', level, h⟩
    split at h
    case h_1 => cases h
    case h_2 i hparse =>
      split at h
      case h_1 => cases h
      case h_2 s hsettings =>
        split at h
        case h_1 => cases h
        case h_2 v hinputs =>
          split at h
          case h_1 => cases h
          case h_2 e' hcommand =>
            cases h
            exact ⟨i, _, v, ⟨hparse, hsettings, hinputs⟩, hcommand⟩
  · rintro ⟨i, s, v, ⟨hparse, hsettings, hinputs⟩, hcommand⟩
    refine ⟨s, i.level, ?_⟩
    rw [hparse]
    dsimp only
    rw [hsettings]
    dsimp only
    rw [hinputs]
    dsimp only
    rw [hcommand]

/-- **A run reports tampering** exactly if it comes to unsealing, and unsealing
answers so. -/
theorem head_chain_run_iff (host : Host (StateM σ)) (environment : List (String × String))
    (words : List String) (w : σ) :
    (∃ e, resultOf (run host environment words) w = .error e
        ∧ (e.chain wording).head? = some tamperedContext)
      ↔ ∃ i s u job c data v core, Started host environment words w i s u
        ∧ i.command = .unsealing job ∧ Unsealing host s job u c data v
        ∧ answerOf (c.unsealAs job.layout data) v = .error core ∧ core.isTampering = true := by
  constructor
  · rintro ⟨e, he, hhead⟩
    obtain ⟨core, s', level, rfl⟩ := e.head_chain_iff.mp hhead
    obtain ⟨i, s, u, hstarted, hcommand⟩ := resultOf_run_eq_command_iff.mp ⟨s', level, he⟩
    obtain ⟨job, c, data, v, h⟩ := (Command.isTampered_iff host s i.command u core).mp hcommand
    exact ⟨i, s, u, job, c, data, v, core, hstarted, h⟩
  · rintro ⟨i, s, u, job, c, data, v, core, hstarted, h⟩
    have hcommand := (Command.isTampered_iff host s i.command u core).mpr ⟨job, c, data, v, h⟩
    obtain ⟨s', level, he⟩ := resultOf_run_eq_command_iff.mpr ⟨i, s, u, hstarted, hcommand⟩
    exact ⟨_, he, (RunError.head_chain_iff _).mpr ⟨core, s', level, rfl⟩⟩

/-- **A run on a host with operational channels reports tampering** exactly if it
comes to unsealing data with a wrong tag. -/
theorem Host.Operational.head_chain_run_iff {host : Host (StateM σ)} (h : host.Operational)
    (environment : List (String × String)) (words : List String) (w : σ) :
    (∃ e, resultOf (run host environment words) w = .error e
        ∧ (e.chain wording).head? = some tamperedContext)
      ↔ ∃ i s u job c data v, Started host environment words w i s u
        ∧ i.command = .unsealing job ∧ Unsealing host s job u c data v
        ∧ c.Mistagged job.layout data v := by
  rw [Enclave.head_chain_run_iff]
  constructor
  · rintro ⟨i, s, u, job, c, data, v, core, hstarted, hjob, hunsealing, hcore⟩
    have hexact := (h.channel_ofSettings hunsealing.certifier v).reportsExactly.unsealAs
    exact ⟨i, s, u, job, c, data, v, hstarted, hjob, hunsealing,
      (hexact job.layout data).mp ⟨core, hcore⟩⟩
  · rintro ⟨i, s, u, job, c, data, v, hstarted, hjob, hunsealing, hmistagged⟩
    have hexact := (h.channel_ofSettings hunsealing.certifier v).reportsExactly.unsealAs
    obtain ⟨core, hcore⟩ := (hexact job.layout data).mpr hmistagged
    exact ⟨i, s, u, job, c, data, v, core, hstarted, hjob, hunsealing, hcore⟩

/-- **Tampering is reported exactly, from the tag to the command line.**

Unsealing reports tampering where sealed data has a wrong tag, and else only where the
channel itself, asked for the key, fails as if there were evidence of tampering. Over
every channel whose sessions never do that, unsealing therefore reports tampering for a
wrong tag and for nothing else, and no other operation reports it; a verification needs
a remote verifier for that which does not report it either. The channels of emulated
enclaves, of directories and of scripts without such a failure are of this kind, also
as parts of a larger world, and so are the verifiers `mock`, `dylib` and `dcap`, the
last one over any service.

Of a run that fails, the first message tells of tampering exactly if the run is
one of the command that unseals and this is what unsealing has answered, on any
host. Where the channels of the host are of the kind above, as on every machine,
the run then came to unsealing data with a wrong tag. -/
theorem tampering_reported_exactly :
    (∀ (σ : Type) (c : Certifier (StateM σ)) (w : σ),
        (∀ (layout : Layout) (data : Bytes),
          (∃ e, answerOf (c.unsealAs layout data) w = .error e ∧ e.isTampering = true)
            ↔ c.Mistagged layout data w ∨ c.Refused layout data w)
        ∧ (c.channel.Operational w → c.ReportsExactly w))
      ∧ ((∀ (e : MockEnclave) (i : Nat) (w : Machine), (Machine.enclaveChannel e i).Operational w)
        ∧ (∀ (p : PseudoFiles) (w : Machine), (Machine.directoryChannel p).Operational w)
        ∧ (∀ s : Script, s.Untampered → Script.channel.Operational s)
        ∧ ∀ (σ τ : Type) (ch : Channel (StateM σ)) (s : σ)
          (f : {γ : Type} → StateM σ γ → StateM τ γ) (place : σ → τ), ActsOn f place →
          ch.Operational s → (ch.lift f).Operational (place s))
      ∧ ((∀ (σ : Type) (status : Int),
          (RemoteVerifier.mock status : RemoteVerifier (StateM σ)).Operational)
        ∧ (∀ status : Int, (RemoteVerifier.recorder status).Operational)
        ∧ (∀ (σ : Type) (plugins : PluginHost (StateM σ)) (library symbol : String) (w : σ),
          (∀ r, answerOf (plugins.verifier library symbol) w = .ok r → r.Operational)
          ∧ ∀ e, answerOf (plugins.verifier library symbol) w = .error e → e.isTampering = false)
        ∧ ∀ (σ : Type) (service : CollateralService (StateM σ)) (address : String)
          (seconds : Nat), (RemoteVerifier.dcap service address seconds).Operational)
      ∧ (∀ (σ : Type) (host : Host (StateM σ)) (environment : List (String × String))
        (words : List String) (w : σ) (wording : LayerFault → String),
        ((∃ e, resultOf (run host environment words) w = .error e
            ∧ (e.chain wording).head?
              = some "sealed data was modified or sealed by another enclave")
          ↔ ∃ i s u job c data v core, Started host environment words w i s u
            ∧ i.command = .unsealing job ∧ Unsealing host s job u c data v
            ∧ answerOf (c.unsealAs job.layout data) v = .error core ∧ core.isTampering = true)
        ∧ (host.Operational →
          ((∃ e, resultOf (run host environment words) w = .error e
              ∧ (e.chain wording).head?
                = some "sealed data was modified or sealed by another enclave")
            ↔ ∃ i s u job c data v, Started host environment words w i s u
              ∧ i.command = .unsealing job ∧ Unsealing host s job u c data v
              ∧ c.Mistagged job.layout data v)))
      ∧ Machine.host.Operational := by
  refine ⟨fun σ c w => ⟨fun layout data => c.isTampering_unsealAs_iff layout data w,
      fun h => h.reportsExactly⟩,
    ⟨Machine.operational_enclaveChannel, Machine.operational_directoryChannel,
      fun s h => h.operational, fun σ τ ch s f place hf h => h.lift hf⟩,
    ⟨fun σ status => ?_, RemoteVerifier.operational_recorder,
      fun σ plugins library symbol w => ⟨fun r h => ?_, fun e h => ?_⟩,
      fun σ service address seconds => ?_⟩,
    fun σ host environment words w wording => ⟨?_, fun h => ?_⟩, Machine.operational_host⟩
  · exact RemoteVerifier.operational_ofStatus _ _
  · exact PluginHost.operational_of_verifier h
  · exact Error.isTampering_of_ne (Error.ne_of_kind (PluginHost.kind_of_verifier h) nofun)
  · exact RemoteVerifier.operational_dcap service address seconds
  · exact head_chain_run_iff host environment words w
  · exact h.head_chain_run_iff environment words w

/-- An empty ciphertext under the key of zeros, with a tag of which every byte is one
more than it should be. -/
theorem tampering_reported_exactly_wrong_tag :
    let wrong : Block := (Gcm.tag (.ofKey .zero) .zero []).map (· + 1)
    ∃ e, answerOf ((Sealer.keyed ⟨.zero⟩ .zero 3).unsealAs .legacy (Blob.mk none wrong []).toBytes)
        Sealer.oneReport = .error e
      ∧ e.isTampering = true := by
  intro wrong
  have hscript : Sealer.oneReport.Untampered := by
    constructor
    · exact nofun
    · intro h
      cases List.mem_singleton.mp h
  have hchannel := tampering_reported_exactly.2.1.2.2.1 Sealer.oneReport hscript
  have hexact := (tampering_reported_exactly.1 Script (Sealer.keyed ⟨.zero⟩ .zero 3)
    Sealer.oneReport).2 hchannel
  have hle : (Blob.mk none wrong []).ciphertext.length ≤ Blob.maxLength := Nat.zero_le _
  have hparts : Blob.parts .legacy (Blob.mk none wrong []).toBytes = Blob.mk none wrong [] :=
    Blob.parts_toBytes (Blob.mk none wrong [])
  have hwrong : Gcm.tag (.ofKey .zero) .zero [] ≠ wrong := by
    intro h
    have hfirst := congrArg (fun b : Block => b[0]) h
    simp [wrong] at hfirst
  refine (hexact.unsealAs .legacy _).mpr ⟨Blob.wellFramed_toBytes hle, ?_, ⟨.zero⟩,
    Sealer.answerOf_key_keyed _ _ _, ?_⟩
  · rw [Blob.declared_toBytes hle]
    exact Nat.zero_le 3
  · rw [hparts]
    exact hwrong

/-- **A script can answer as if there were evidence of tampering**, and is believed: there
is no key, under which the tag could be wrong, and unsealing reports tampering all the
same. So does attesting. -/
theorem tampering_answered_by_script :
    let script : Script := ⟨[.error .authenticationFailure], [], []⟩
    let c : Certifier (StateM Script) := Sealer.keyed ⟨.zero⟩ .zero 3
    let data := (Blob.mk none .zero []).toBytes
    (∃ e, answerOf (c.unsealAs .legacy data) script = .error e ∧ e.isTampering = true)
      ∧ ¬ c.Mistagged .legacy data script
      ∧ ∃ e, answerOf (c.attest []) script = .error e ∧ e.isTampering = true := by
  intro script c data
  have hkey : answerOf c.key script = .error .authenticationFailure := rfl
  have hle : (Blob.mk none .zero []).ciphertext.length ≤ Blob.maxLength := Nat.zero_le _
  have hlimit : Blob.declared data ≤ c.maxPayload := by
    rw [Blob.declared_toBytes hle]
    exact Nat.zero_le 3
  refine ⟨?_, ?_, .authenticationFailure, rfl, rfl⟩
  · exact (c.isTampering_unsealAs_iff .legacy data script).mpr
      (.inr ⟨Blob.wellFramed_toBytes hle, hlimit, hkey⟩)
  · rintro ⟨-, -, key, hok, -⟩
    cases hkey.symm.trans hok

end Enclave
