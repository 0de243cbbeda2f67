import Enclave.Attestation.Collateral
import Enclave.Settings.Basic
import Enclave.Text.Quoted

/-!
# The registry of remote verifiers

Remote verifiers are found by name. One can be registered ready for use, or as
a loader that runs when the name is first resolved. What a loader brings is
kept from then on; a loader that fails is tried again the next time, and
registering a name anew forgets whatever was kept under it.

Entries are in the order of their names, which is the order in which names
are listed.
-/

namespace Enclave

variable {m : Type → Type}

/-- **What is registered under a name.** -/
inductive Provider (m : Type → Type) where
  /-- A verifier. -/
  | ready (verifier : RemoteVerifier m)
  /-- A loader, and the verifier it brought if it ran with success. -/
  | onDemand (loader : ExceptT Error m (RemoteVerifier m)) (loaded : Option (RemoteVerifier m))

/-- **Remote verifiers by name.** -/
structure Registry (m : Type → Type) where
  /-- What is registered, in the order of the names. -/
  entries : List (String × Provider m) := []

namespace Registry

/-- Entries with a new one in its place. -/
def insert (name : String) (p : Provider m) :
    List (String × Provider m) → List (String × Provider m)
  | [] => [(name, p)]
  | (n, q) :: rest =>
    if name < n then (name, p) :: (n, q) :: rest
    else if name = n then (name, p) :: rest
    else (n, q) :: insert name p rest

/-- **The registered names**, in order. -/
def names (r : Registry m) : List String := r.entries.map (·.1)

/-- **A verifier registered** under a name. -/
def register (r : Registry m) (name : String) (verifier : RemoteVerifier m) : Registry m :=
  ⟨insert name (.ready verifier) r.entries⟩

/-- **A loader registered** under a name. It does not run yet. -/
def registerLoader (r : Registry m) (name : String)
    (loader : ExceptT Error m (RemoteVerifier m)) : Registry m :=
  ⟨insert name (.onDemand loader none) r.entries⟩

/-- **The verifier under a name**, and the registry afterwards. -/
def resolve [Monad m] (r : Registry m) (name : String) :
    m (Except Error (RemoteVerifier m) × Registry m) := do
  match r.entries.lookup name with
  | some (.ready verifier) => return (.ok verifier, r)
  | some (.onDemand _ (some verifier)) => return (.ok verifier, r)
  | some (.onDemand loader none) =>
    match ← loader.run with
    | .ok verifier =>
      return (.ok verifier, ⟨insert name (.onDemand loader (some verifier)) r.entries⟩)
    | .error e => return (.error e, r)
  | none => return (.error (.pluginLoadFailure name (.unregistered r.names)), r)

/-- **The `dcap` verifier that settings ask for**: its service has as long to answer as a
single transfer may take. -/
def dcapOf [Monad m] (s : Settings) (service : CollateralService m) : RemoteVerifier m :=
  .dcap service s.pccsUrl (s.ioTimeout.getD RemoteVerifier.defaultSeconds)

/-- **The registry that settings ask for**: `dcap`, a `dylib` that is loaded on
demand, and in mock mode also `mock`. -/
def ofSettings [Monad m] (s : Settings) (plugins : PluginHost m)
    (service : CollateralService m) : Registry m :=
  let r : Registry m := {}
  let r := if s.mockSgx then r.register VerifierKind.mock.name (.mock 0) else r
  let r := r.register VerifierKind.dcap.name (dcapOf s service)
  r.registerLoader VerifierKind.dylib.name (plugins.verifier s.verifierLibrary s.verifierSymbol)

/-- How a registry is shown to a developer: by its names. -/
def describe (r : Registry m) : String :=
  "VerifierRegistry \x7b providers: [" ++ ", ".intercalate (r.names.map Text.quoted) ++ "] \x7d"

end Registry

end Enclave
