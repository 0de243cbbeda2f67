import Enclave.Json.Decode
import Enclave.Settings.Basic

/-!
# Settings as values

Settings are read from an object with a member for each setting and written as
one. A member that is missing leaves the default, and members with other names
are ignored, so that decoding lays what is given over the defaults. Members
are decoded in the order given, and the first fault is reported.
-/

namespace Enclave

/-- **The single settings**, in the order in which they are declared. -/
inductive Setting where
  | mockSgx
  | attestationDir
  | measurementFile
  | ioTimeoutSecs
  | maxPayload
  | verifier
  | verifierLibrary
  | verifierSymbol
  | pccsUrl
deriving DecidableEq, Repr

namespace Setting

/-- All settings, in order. -/
def all : List Setting :=
  [mockSgx, attestationDir, measurementFile, ioTimeoutSecs, maxPayload, verifier,
    verifierLibrary, verifierSymbol, pccsUrl]

/-- All settings, in the order of their names. -/
def alphabetical : List Setting :=
  [attestationDir, ioTimeoutSecs, maxPayload, measurementFile, mockSgx, pccsUrl, verifier,
    verifierLibrary, verifierSymbol]

/-- The name of a setting. -/
def name : Setting → String
  | mockSgx => "mock_sgx"
  | attestationDir => "attestation_dir"
  | measurementFile => "measurement_file"
  | ioTimeoutSecs => "io_timeout_secs"
  | maxPayload => "max_payload"
  | verifier => "verifier"
  | verifierLibrary => "verifier_library"
  | verifierSymbol => "verifier_symbol"
  | pccsUrl => "pccs_url"

/-- The setting with a name. -/
def ofName? (name : String) : Option Setting :=
  all.find? (·.name = name)

@[simp] theorem ofName?_name (s : Setting) : ofName? s.name = some s := by
  cases s <;> decide

end Setting

namespace VerifierKind

/-- The names of all kinds. -/
def names : List String := ["dylib", "dcap", "mock"]

/-- The kind with a name, or the fault for a name there is not. -/
def ofVariant (name : String) : Except DecodeFault VerifierKind :=
  match ofName? name with
  | some k => .ok k
  | none => .error (.unknownVariant name names)

/-- **A kind of verifier**: its name, or an object with the name alone. -/
def ofJson : Json → Except DecodeFault VerifierKind
  | .string name => ofVariant name
  | .object [(name, content)] => do
    let kind ← ofVariant name
    match content with
    | .null => return kind
    | j => throw (.wrongType j "unit")
  | .object members => .error (.wrongValue (.object members) "map with a single key")
  | j => .error (.wrongType j "string or map")

end VerifierKind

namespace Settings

/-- **One setting given a value.** -/
def assign (s : Settings) (field : Setting) (j : Json) : Except DecodeFault Settings :=
  match field with
  | .mockSgx => return { s with mockSgx := ← j.toBool }
  | .attestationDir => return { s with attestationDir := ← j.toText "path string" }
  | .measurementFile =>
    match j with
    | .null => return { s with measurementFile := none }
    | j => return { s with measurementFile := some (← j.toText "path string") }
  | .ioTimeoutSecs => return { s with ioTimeoutSecs := ← j.toUInt64 "u64" }
  | .maxPayload => return { s with maxPayload := ← j.toUInt64 "usize" }
  | .verifier => return { s with verifier := ← VerifierKind.ofJson j }
  | .verifierLibrary => return { s with verifierLibrary := ← j.toText "path string" }
  | .verifierSymbol => return { s with verifierSymbol := ← j.toText "a string" }
  | .pccsUrl => return { s with pccsUrl := ← j.toText "a string" }

/-- A member laid over settings, if its name is that of a setting. -/
def overlay (s : Settings) (member : String × Json) : Except DecodeFault Settings :=
  match Setting.ofName? member.1 with
  | some field => s.assign field member.2
  | none => .ok s

/-- **The settings in a value**: an object, or an array with the settings in
their order. -/
def ofJson : Json → Except DecodeFault Settings
  | .object members => members.foldlM overlay {}
  | .array items => do
    let s ← (Setting.all.zip items).foldlM (fun s (field, j) => s.assign field j) {}
    if Setting.all.length < items.length then throw (.tooManyItems items.length)
    return s
  | j => .error (.wrongType j "struct CertifierConfig")

/-- The value of a setting, if it has one. -/
def value? (s : Settings) : Setting → Option Json
  | .mockSgx => some (.bool s.mockSgx)
  | .attestationDir => some (.string s.attestationDir)
  | .measurementFile => s.measurementFile.map .string
  | .ioTimeoutSecs => some (.integer s.ioTimeoutSecs.toNat)
  | .maxPayload => some (.integer s.maxPayload.toNat)
  | .verifier => some (.string s.verifier.name)
  | .verifierLibrary => some (.string s.verifierLibrary)
  | .verifierSymbol => some (.string s.verifierSymbol)
  | .pccsUrl => some (.string s.pccsUrl)

/-- The members of the object that settings are written as. -/
def toMembers (s : Settings) : List (String × Json) :=
  Setting.all.filterMap fun field => (s.value? field).map (field.name, ·)

/-- **Settings written as an object.** A measurement file that is not set has
no member. -/
def toJson (s : Settings) : Json := .object s.toMembers

end Settings

end Enclave
