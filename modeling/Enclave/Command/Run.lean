import Enclave.Attestation.Registry
import Enclave.Command.Invocation
import Enclave.Command.Response

/-!
# Running a command line

A run reads the command line, loads the settings, looks whether the input files
are there, and carries out the command. Whatever goes wrong ends it there, and
the file that a command writes is written last, so that a run which fails
leaves all files as they were.
-/

namespace Enclave

variable {m : Type → Type}

/-- **Why a command is not carried out.** -/
inductive CommandError where
  /-- An operation of the enclave fails. -/
  | operation (cause : Error)
  /-- Sealed data does not belong to this enclave, or was changed. -/
  | tampered (cause : Error)
  /-- A file cannot be used. -/
  | file (path : String) (cause : IoError)
deriving DecidableEq, Repr

/-- **The wording of an error**, and of what lies behind it. -/
def CommandError.chain : CommandError → List String
  | operation e => e.message :: e.message :: (e.cause?.map IoError.text).toList
  | tampered e =>
    "sealed data was modified or sealed by another enclave" :: e.message :: e.message
      :: (e.cause?.map IoError.text).toList
  | file path e => [s!"Failed to access `{path}`: {e.text}", e.text]

/-- **How a run can fail.** -/
inductive RunError where
  /-- The command line is not understood. -/
  | usage (e : UsageError)
  /-- There are no settings. -/
  | settings (e : SettingsError)
  /-- An input file is not there. -/
  | missingInput (what path : String) (s : Settings) (level : LogLevel)
  /-- The command fails. -/
  | command (e : CommandError) (s : Settings) (level : LogLevel)
deriving Repr

/-- The wording of a missing input file. -/
def missingInputMessage (what path : String) : String :=
  s!"The {what} file does not exist: {path}"

/-- **The messages of a run that fails.** A command line that is not understood is
answered by a text about its use. -/
def RunError.chain (wording : LayerFault → String) : RunError → List String
  | usage _ => []
  | settings e => [e.message wording]
  | missingInput what path _ _ => [missingInputMessage what path]
  | command e _ _ => e.chain

/-- **What a successful run answers**, with the settings and the level of logging
it had. -/
structure RunResult where
  /-- The answer of the command. -/
  response : Response
  /-- The settings. -/
  settings : Settings
  /-- The level of logging. -/
  level : LogLevel
deriving Repr

namespace Command

/-- **The files a command reads**, by what they are, in the order in which they
are looked for. -/
def inputs : Command → List (String × String)
  | attest claims _ => [("claims", claims)]
  | verify job => [("user data", job.userData), ("quote", job.quote)]
  | sealing job => [("input", job.input)]
  | unsealing job => [("sealed", job.input)]
  | measurement => []

/-- An operation of the enclave as a part of a command. -/
def perform [Monad m] {α : Type} (x : ExceptT Error m α) : ExceptT CommandError m α :=
  x.adapt .operation

/-- The content of a file. -/
def readInput [Monad m] (host : Host m) (path : String) : ExceptT CommandError m Bytes :=
  (host.readFile path).adapt (.file path)

/-- The content of a file replaced. -/
def writeOutput [Monad m] (host : Host m) (path : String) (b : Bytes) :
    ExceptT CommandError m Unit :=
  (host.writeFile path b).adapt (.file path)

/-- Attesting the claims in a file. The quote has to be readable as one. -/
def runAttest [Monad m] (host : Host m) (s : Settings) (claims output : String) :
    ExceptT CommandError m Response := do
  let certifier ← perform (Certifier.ofSettings host s)
  let content ← readInput host claims
  let raw ← perform (certifier.attest content)
  let quote ← perform (liftExcept (Quote.parse raw))
  writeOutput host output raw
  return .attest output raw.length quote.reportData

/-- Verifying a quote in a file. -/
def runVerify [Monad m] (host : Host m) (s : Settings) (job : VerifyJob) :
    ExceptT CommandError m Response := do
  let certifier ← perform (Certifier.ofSettings host s)
  let kind := s.effectiveVerifier
  let (resolved, _) ← (Registry.ofSettings s host.plugins host.collateral).resolve kind.name
  let remote ← perform (liftExcept resolved)
  let userData ← readInput host job.userData
  let quote ← readInput host job.quote
  let measurement ← perform (certifier.verify userData quote remote)
  return .verify kind measurement

/-- Sealing a file. -/
def runSealing [Monad m] (host : Host m) (s : Settings) (job : SealingJob) :
    ExceptT CommandError m Response := do
  let certifier ← perform (Certifier.ofSettings host s)
  let plaintext ← readInput host job.input
  let data ← perform (certifier.sealAs job.layout plaintext)
  writeOutput host job.output data
  return .sealing job.output plaintext.length data.length job.layout

/-- The error of unsealing, told apart by whether it is evidence of tampering. -/
def unsealingError (e : Error) : CommandError :=
  if e.isTampering then .tampered e else .operation e

/-- Unsealing a file. -/
def runUnsealing [Monad m] (host : Host m) (s : Settings) (job : SealingJob) :
    ExceptT CommandError m Response := do
  let certifier ← perform (Certifier.ofSettings host s)
  let data ← readInput host job.input
  let plaintext ← (certifier.unsealAs job.layout data).adapt unsealingError
  writeOutput host job.output plaintext
  return .unsealing job.output plaintext.length

/-- The measurement of the enclave. -/
def runMeasurement [Monad m] (host : Host m) (s : Settings) :
    ExceptT CommandError m Response := do
  let certifier ← perform (Certifier.ofSettings host s)
  return .measurement certifier.measurement s.mockSgx

/-- **A command carried out** under some settings. -/
def run [Monad m] (host : Host m) (s : Settings) : Command → ExceptT CommandError m Response
  | attest claims output => runAttest host s claims output
  | verify job => runVerify host s job
  | sealing job => runSealing host s job
  | unsealing job => runUnsealing host s job
  | measurement => runMeasurement host s

end Command

/-- The first of some paths that leads to a regular file. -/
def firstFile [Monad m] (host : Host m) : List String → m (Option String)
  | [] => return none
  | path :: rest => do
    if ← host.isFile path then return some path else firstFile host rest

/-- **The settings file of a run.** One that is chosen has to be there; the one
that is used otherwise is looked for in the working directory and above it,
and may be missing. -/
def findSettingsFile [Monad m] (host : Host m) (chosen : Option String) :
    ExceptT SettingsError m (Option String) := do
  match chosen with
  | some path =>
    if ← host.isFile path then return some path else throw (.missingFile path)
  | none =>
    let directory ← host.workingDirectory
    ExceptT.lift (firstFile host (Path.upwards directory Settings.defaultFile))

/-- **The settings of an invocation.** -/
def loadSettings [Monad m] (host : Host m) (environment : List (String × String))
    (i : Invocation) : ExceptT SettingsError m Settings := do
  let content ← match ← findSettingsFile host i.configFile with
    | none => pure none
    | some path =>
      match ← (host.readFile path).run with
      | .ok content => pure (some content)
      | .error e => throw (.undecodable (.unreadable e))
  liftExcept (Settings.load content environment i.mentions)

/-- The first input file that is not there. -/
def missingInput [Monad m] (host : Host m) :
    List (String × String) → m (Option (String × String))
  | [] => return none
  | (what, path) :: rest => do
    if ← host.isFile path then missingInput host rest else return some (what, path)

/-- **A run** of the program with an environment and the words of a command
line. -/
def run [Monad m] (host : Host m) (environment : List (String × String)) (words : List String) :
    ExceptT RunError m RunResult := do
  let i ← liftExcept ((Invocation.parse environment words).mapError RunError.usage)
  let s ← (loadSettings host environment i).adapt .settings
  match ← ExceptT.lift (missingInput host i.command.inputs) with
  | some (what, path) => throw (.missingInput what path s i.level)
  | none =>
    match ← (i.command.run host s).run with
    | .ok response => return ⟨response, s, i.level⟩
    | .error e => throw (.command e s i.level)

end Enclave
