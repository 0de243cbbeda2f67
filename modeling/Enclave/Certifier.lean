import Enclave.Attestation.Registry
import Enclave.Attestation.Verify
import Enclave.Channel.Mock
import Enclave.Sealing.Sealer

/-!
# Certifiers

A certifier brings the four operations together over one enclave: it attests
claims, verifies quotes of others, and seals and unseals data. `Certifier.ofSettings`
builds one, over emulated hardware in mock mode and over real hardware
otherwise. What the surroundings have to offer for that is a `Host`.

Settings are checked before anything else is done with them.
-/

namespace Enclave

variable {m : Type → Type}

/-- **What a certifier needs from the machine it runs on.** -/
structure Host (m : Type → Type) where
  /-- The directory that relative paths start in. -/
  workingDirectory : m String
  /-- Whether a path leads to a regular file. -/
  isFile : String → m Bool
  /-- The content of a file. -/
  readFile : String → ExceptT IoError m Bytes
  /-- Creates a file or replaces its content. -/
  writeFile : String → Bytes → ExceptT IoError m Unit
  /-- The attestation files in a directory. -/
  pseudoFiles : PseudoFiles → Channel m
  /-- The attestation files of a new emulated enclave. -/
  emulate : MockEnclave → m (Channel m)
  /-- The key derivation of the processor. -/
  processorKeys : KeyRequester m
  /-- Where verification libraries are loaded. -/
  plugins : PluginHost m
  /-- Where collateral for quotes comes from. -/
  collateral : CollateralService m
  /-- A nonce that was not used before. -/
  freshNonce : m Block

/-- **The four operations over one enclave.** All of them go through the same
attestation files. -/
abbrev Certifier (m : Type → Type) := Sealer m

namespace Certifier

/-- A quote that binds the digest of claims. -/
def attest [Monad m] (c : Certifier m) (claims : Bytes) : ExceptT Error m Bytes :=
  c.channel.attest claims

/-- The measurement that a trusted quote over user data states. -/
def verify [Monad m] (c : Certifier m) (userData quote : Bytes) (remote : RemoteVerifier m) :
    ExceptT Error m Measurement :=
  c.channel.verify userData quote remote

/-- **The measurement in a file**, which holds exactly its 32 bytes. -/
def measurementFile [Monad m] (host : Host m) (path : String) : ExceptT Error m Measurement := do
  match ← (host.readFile path).run with
  | .error e => throw (.invalidMeasurement (.unreadable path e))
  | .ok bytes =>
    match Measurement.ofBytes? bytes with
    | some measurement => return measurement
    | none => throw (.invalidMeasurement (.wrongSize bytes.length))

/-- A certifier over an emulated enclave. -/
def emulated [Monad m] (host : Host m) (s : Settings) : ExceptT Error m (Certifier m) := do
  let measurement ← match s.measurementFile with
    | some path => measurementFile host path
    | none => pure MockEnclave.defaultMeasurement
  let channel ← host.emulate { measurement }
  return {
    channel
    requester := .mock measurement
    freshNonce := host.freshNonce
    measurement
    maxPayload := s.maxPayload.toNat }

/-- A certifier over the attestation files and the key derivation of the
machine. -/
def hardware [Monad m] (host : Host m) (s : Settings) : ExceptT Error m (Certifier m) := do
  let channel := host.pseudoFiles ⟨s.attestationDir, s.ioTimeout.map (1000 * ·)⟩
  let measurement ← match s.measurementFile with
    | some path => measurementFile host path
    | none => channel.measurement
  return {
    channel
    requester := host.processorKeys
    freshNonce := host.freshNonce
    measurement
    maxPayload := s.maxPayload.toNat }

/-- **The certifier that settings ask for.** -/
def ofSettings [Monad m] (host : Host m) (s : Settings) : ExceptT Error m (Certifier m) := do
  liftExcept s.validate
  if s.mockSgx then emulated host s else hardware host s

end Certifier

end Enclave
