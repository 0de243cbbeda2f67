import Enclave.Command.Options
import Enclave.Settings.Layers

/-!
# Command lines

What can be asked for on a command line: one of five commands, each with
options of its own, and in front of it the options that hold for all of them.
Some options are settings; what they mention is the uppermost layer
(`Invocation.mentions`), and an option that is not given mentions nothing.
-/

namespace Enclave

/-- **How much is logged.** -/
inductive LogLevel where
  | info
  | debug
  | trace
deriving DecidableEq, Repr

namespace LogLevel

/-- The name of a level. -/
def name : LogLevel → String
  | info => "info"
  | debug => "debug"
  | trace => "trace"

/-- The level after the option for more was given a number of times. -/
def ofCount : Nat → LogLevel
  | 0 => info
  | 1 => debug
  | _ => trace

end LogLevel

/-- **The files and the layout of a sealing command.** -/
structure SealingJob where
  /-- The file that is read. -/
  input : String
  /-- The file that is written. -/
  output : String
  /-- The layout of the sealed data. -/
  layout : Layout
  /-- The limit for the plaintext, if it is given. -/
  maxPayload : Option Nat := none
deriving DecidableEq, Repr

/-- **The files and the settings of a verification.** -/
structure VerifyJob where
  /-- The file with the user data. -/
  userData : String
  /-- The file with the quote. -/
  quote : String
  /-- The remote verifier, if it is given. -/
  verifier : Option VerifierKind := none
  /-- The library of the verifier, if it is given. -/
  library : Option String := none
  /-- The service of the verifier, if it is given. -/
  serviceUrl : Option String := none
deriving DecidableEq, Repr

/-- **A command.** -/
inductive Command where
  /-- Have a quote made over the claims in a file. -/
  | attest (claims output : String)
  /-- Verify a quote over user data. -/
  | verify (job : VerifyJob)
  /-- Seal a file. -/
  | sealing (job : SealingJob)
  /-- Unseal a file. -/
  | unsealing (job : SealingJob)
  /-- Show the measurement of the enclave. -/
  | measurement
deriving DecidableEq, Repr

/-- **What a command line asks for.** -/
structure Invocation where
  /-- How much is logged. -/
  level : LogLevel
  /-- Whether mock mode is switched on. -/
  mockSgx : Bool
  /-- The settings file, if one is chosen. -/
  configFile : Option String
  /-- The directory of the attestation files, if it is given. -/
  attestationDir : Option String
  /-- The file with the measurement, if it is given. -/
  measurementFile : Option String
  /-- The limit for a transfer, if it is given. -/
  ioTimeoutSecs : Option Nat
  /-- The command. -/
  command : Command
deriving DecidableEq, Repr

namespace Invocation

/-! ## The options -/

/-- A path may not be empty. -/
def checkPath (s : String) : Except UsageError Unit :=
  if s = "" then .error .emptyValue else .ok ()

/-- The number that a text gives, below `2^64`. -/
def number? (s : String) : Option Nat := Literal.natural? UInt64.size s.toList

/-- A number has to be one. -/
def checkNumber (s : String) : Except UsageError Unit :=
  if (number? s).isSome then .ok () else .error .badValue

/-- A kind of verifier has to exist. -/
def checkVerifier (s : String) : Except UsageError Unit :=
  if (VerifierKind.ofName? s).isSome then .ok () else .error .badValue

/-- The option that asks for help. -/
def helpOption : CommandOption := { name := "help", letter := 'h', use := .help }

/-- **The options in front of the command.** -/
def commonOptions : List CommandOption :=
  [{ name := "verbose", letter := 'v', use := .count },
    { name := "mock-sgx", use := .toggle },
    { name := "config", use := .value checkPath },
    { name := "attestation-dir", use := .value checkPath },
    { name := "measurement-file", use := .value checkPath },
    { name := "io-timeout-secs", use := .value checkNumber },
    helpOption,
    { name := "version", letter := 'V', use := .version }]

/-- The options of `attest`. -/
def attestOptions : List CommandOption :=
  [{ name := "claims", use := .value checkPath, needed := true },
    { name := "out", use := .value checkPath },
    helpOption]

/-- The options of `verify`. -/
def verifyOptions : List CommandOption :=
  [{ name := "user-data", use := .value checkPath, needed := true },
    { name := "quote", use := .value checkPath, needed := true },
    { name := "verifier", use := .value checkVerifier },
    { name := "verifier-library", use := .value checkPath },
    { name := "pccs-url", use := .value fun _ => .ok () },
    helpOption]

/-- The options of `seal` and of `unseal`. -/
def sealingOptions : List CommandOption :=
  [{ name := "in", use := .value checkPath, needed := true },
    { name := "out", use := .value checkPath, needed := true },
    { name := "with-nonce", use := .toggle },
    { name := "max-payload", use := .value checkNumber },
    helpOption]

/-! ## The commands -/

/-- The names of the commands. -/
def commandNames : List String := ["attest", "verify", "seal", "unseal", "measurement"]

/-- Where a quote is written unless a file is given. -/
def defaultQuoteFile : String := "quote.bin"

/-- The job that the options of a sealing command give. -/
def sealingJob (r : Reading) : SealingJob where
  input := (r.value? "in").getD ""
  output := (r.value? "out").getD ""
  layout := if r.count "with-nonce" = 0 then .legacy else .nonced
  maxPayload := (r.value? "max-payload").bind number?

/-- The job that the options of a verification give. -/
def verifyJob (r : Reading) : VerifyJob where
  userData := (r.value? "user-data").getD ""
  quote := (r.value? "quote").getD ""
  verifier := (r.value? "verifier").bind VerifierKind.ofName?
  library := r.value? "verifier-library"
  serviceUrl := r.value? "pccs-url"

/-- **A command with its options**, from the words that follow its name. -/
def readCommand (name : String) (words : List String) : Except UsageError Command := do
  match name with
  | "attest" =>
    let r ← readOptions attestOptions words
    return .attest ((r.value? "claims").getD "") ((r.value? "out").getD defaultQuoteFile)
  | "verify" => return .verify (verifyJob (← readOptions verifyOptions words))
  | "seal" => return .sealing (sealingJob (← readOptions sealingOptions words))
  | "unseal" => return .unsealing (sealingJob (← readOptions sealingOptions words))
  | "measurement" =>
    let _ ← readOptions [helpOption] words
    return .measurement
  | _ => throw .invalidCommand

/-- The command that shows help about a command. -/
def helpCommand : String := "help"

/-- **How asking for help about a command ends.** -/
def help (words : List String) : UsageError :=
  match words with
  | [] => .helpAsked
  | [name] =>
    if commandNames.contains name || name = helpCommand then .helpAsked else .invalidCommand
  | _ => .invalidCommand

/-- The variable that chooses the settings file. -/
def configVariable : String := "CERTIFIER_CONFIG"

/-- **The invocation in the words of a command line.** The settings file may
also be chosen by a variable. -/
def parse (environment : List (String × String)) (words : List String) :
    Except UsageError Invocation := do
  let (r, found) ← Reading.words commonOptions (commandNames ++ [helpCommand]) {} words
  let command ← match found with
    | none => pure none
    | some (name, rest) =>
      if name = helpCommand then throw (help rest) else some <$> readCommand name rest
  let r ← r.settle
  let chosen ← match r.value? "config", environment.lookup configVariable with
    | some path, _ => pure (some path)
    | none, some path => (checkPath path).map fun _ => some path
    | none, none => pure none
  match command with
  | none => throw (if r.given = [] && chosen = none then .nothingGiven else .missingCommand)
  | some command =>
    return {
      level := .ofCount (r.count "verbose")
      mockSgx := r.count "mock-sgx" ≠ 0
      configFile := chosen
      attestationDir := r.value? "attestation-dir"
      measurementFile := r.value? "measurement-file"
      ioTimeoutSecs := (r.value? "io-timeout-secs").bind number?
      command }

/-! ## Settings on the command line -/

/-- What a command mentions. -/
def commandMentions : Command → Layer
  | .verify job =>
    (job.verifier.map fun k => (Setting.verifier.name, Json.string k.name)).toList
      ++ (job.library.map fun s => (Setting.verifierLibrary.name, Json.string s)).toList
      ++ (job.serviceUrl.map fun s => (Setting.pccsUrl.name, Json.string s)).toList
  | .sealing job | .unsealing job =>
    (job.maxPayload.map fun n => (Setting.maxPayload.name, Json.integer n)).toList
  | .attest .. | .measurement => []

/-- **What an invocation mentions.** -/
def mentions (i : Invocation) : Layer :=
  (if i.mockSgx then [(Setting.mockSgx.name, Json.bool true)] else [])
    ++ (i.attestationDir.map fun s => (Setting.attestationDir.name, Json.string s)).toList
    ++ (i.measurementFile.map fun s => (Setting.measurementFile.name, Json.string s)).toList
    ++ (i.ioTimeoutSecs.map fun n => (Setting.ioTimeoutSecs.name, Json.integer n)).toList
    ++ commandMentions i.command

end Invocation

end Enclave
