import Enclave.Channel.PseudoFiles
import Enclave.Sealing.Sealer

/-!
# Settings

What an operator can choose: whether to run on real hardware or to emulate it,
where the attestation files are, how long to wait for them, how much may be
sealed at once, and which remote verifier decides on quotes.

Settings that make no sense are refused (`Settings.validate`). In particular
the mock verifier, which trusts every quote, can only be selected together
with mock mode; and in mock mode it is used whatever else is selected
(`Settings.effectiveVerifier`).
-/

namespace Enclave

/-- **The kinds of remote verifier** an operator can select. -/
inductive VerifierKind where
  /-- A function in a shared library. -/
  | dylib
  /-- Verification in the process, with collateral from a service. -/
  | dcap
  /-- The verifier that trusts every quote. -/
  | mock
deriving DecidableEq, Repr, Inhabited

namespace VerifierKind

/-- The name of a kind. -/
def name : VerifierKind → String
  | dylib => "dylib"
  | dcap => "dcap"
  | mock => "mock"

/-- The kind with a name. -/
def ofName? : String → Option VerifierKind
  | "dylib" => some dylib
  | "dcap" => some dcap
  | "mock" => some mock
  | _ => none

@[simp] theorem ofName?_name (k : VerifierKind) : ofName? k.name = some k := by
  cases k <;> rfl

/-- The kind a text names, or the error for a text that names none. -/
def parse (s : String) : Except Error VerifierKind :=
  match ofName? s with
  | some k => .ok k
  | none => .error (.config (.unknownVerifier s))

end VerifierKind

/-- **The settings of a certifier**, with their defaults. -/
structure Settings where
  /-- Whether attestation files and key derivation are emulated. -/
  mockSgx : Bool := false
  /-- The directory of the attestation files. -/
  attestationDir : String := PseudoFiles.defaultRoot
  /-- The file that holds the measurement; without one, a quote is asked. -/
  measurementFile : Option String := none
  /-- The limit for a single transfer in seconds; zero is no limit. -/
  ioTimeoutSecs : UInt64 := 30
  /-- The largest plaintext that is accepted. -/
  maxPayload : UInt64 := UInt64.ofNat Sealer.defaultMaxPayload
  /-- The remote verifier. -/
  verifier : VerifierKind := .dylib
  /-- The library of the `dylib` verifier. -/
  verifierLibrary : String := "libra_tls_verify_dcap.so"
  /-- The entry point in that library. -/
  verifierSymbol : String := "gramine_verify_quote"
  /-- The service of the `dcap` verifier. -/
  pccsUrl : String := "https://localhost:8081/sgx/certification/v4/"
deriving DecidableEq, Repr, Inhabited

namespace Settings

/-- The limit for a single transfer in seconds, if there is one. -/
def ioTimeout (s : Settings) : Option Nat :=
  if s.ioTimeoutSecs = 0 then none else some s.ioTimeoutSecs.toNat

/-- **The verifier that is used**: in mock mode, never a real one. -/
def effectiveVerifier (s : Settings) : VerifierKind :=
  if s.mockSgx then .mock else s.verifier

/-- **Whether the settings make sense.** The first that does not is the error. -/
def validate (s : Settings) : Except Error Unit :=
  if s.maxPayload = 0 || Blob.maxLength < s.maxPayload.toNat then
    .error (.config .payloadLimit)
  else if s.verifierSymbol = "" then .error (.config .emptySymbol)
  else if !s.mockSgx && s.verifier = .mock then .error (.config .mockVerifier)
  else .ok ()

/-- **Whether two settings say the same.** Paths are compared by what they say,
not by how they are spelled. -/
def same (s t : Settings) : Bool :=
  Path.normal s.attestationDir = Path.normal t.attestationDir
    && s.measurementFile.map Path.normal = t.measurementFile.map Path.normal
    && Path.normal s.verifierLibrary = Path.normal t.verifierLibrary
    && { s with
          attestationDir := t.attestationDir
          measurementFile := t.measurementFile
          verifierLibrary := t.verifierLibrary } = t

end Settings

end Enclave
