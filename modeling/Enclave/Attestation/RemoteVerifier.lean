import Enclave.Data.Bytes
import Enclave.Error

/-!
# Remote verifiers

Whether the signature of a quote is genuine is not decided here but by a
backend, which is given the bytes of the quote and answers with a status. Zero
means that the quote is trusted, and any other status refuses it.

A plugin is a function out of a loaded library. The mock verifier answers a fixed
status and can keep a record of what it was shown. The verifier that needs
collateral from a service is in a module of its own.
-/

namespace Enclave

variable {m n : Type → Type}

/-- **A backend that decides whether a quote is trusted.** -/
structure RemoteVerifier (m : Type → Type) where
  /-- The name that errors mention. -/
  name : String
  /-- Succeeds for a trusted quote, and rejects any other with a status. -/
  check : Bytes → ExceptT Error m Unit

namespace RemoteVerifier

/-- **What a status means**: zero is trust. -/
def verdict (name : String) (status : Int) : Except Error Unit :=
  if status = 0 then .ok () else .error (.pluginRejected name status)

/-- **A verifier that answers by a function** of the quote. -/
def ofStatus [Monad m] (name : String) (status : Bytes → Int) : RemoteVerifier m where
  name
  check quote := liftExcept (verdict name (status quote))

/-- The name of the mock verifier in errors. -/
def mockName : String := "mock"

/-- **The mock verifier**: the same status for every quote. -/
def mock [Monad m] (status : Int) : RemoteVerifier m :=
  ofStatus mockName fun _ => status

/-- **The mock verifier that keeps a record** of the quotes it was shown. -/
def recorder (status : Int) : RemoteVerifier (StateM (List Bytes)) where
  name := mockName
  check quote := do
    modify (· ++ [quote])
    liftExcept (verdict mockName status)

/-- A verifier acting in a larger world. -/
def lift (f : {α : Type} → m α → n α) (r : RemoteVerifier m) : RemoteVerifier n where
  name := r.name
  check quote := ExceptT.mk (f (r.check quote).run)

end RemoteVerifier

/-- **Where verification libraries are loaded.** -/
structure PluginHost (m : Type → Type) where
  /-- The function behind a symbol of a library, from a quote to a status. -/
  load : (library symbol : String) → m (Except LoadFault (Bytes → Int))

/-- **The verifier in a library.** It goes by the path of the library. -/
def PluginHost.verifier [Monad m] (host : PluginHost m) (library symbol : String) :
    ExceptT Error m (RemoteVerifier m) := do
  match ← host.load library symbol with
  | .ok status => return .ofStatus library status
  | .error fault => throw (.pluginLoadFailure library fault)

end Enclave
