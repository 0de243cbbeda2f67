import Enclave.Attestation.RemoteVerifier

/-!
# Verifying with collateral

The `dcap` verifier does not decide on a quote by itself. Collateral for the quote is
fetched from a service first, and then the quote is judged by it at the present time.
Each of these steps can fail: there may be no way to wait for the service, the
collateral may not come or not come in time, and the clock may stand before the
beginning of time.

The service is a parameter, and so is what its collateral is and shows
(`CollateralService`).
-/

namespace Enclave

/-- **What verifying with collateral takes.** -/
structure CollateralService (m : Type → Type) where
  /-- What the service has to say on a quote. -/
  Collateral : Type
  /-- Prepares to wait for the service, or says why this is not possible. -/
  prepare : m (Except String Unit)
  /-- The collateral for a quote from the service at an address, if it comes within
  some seconds. -/
  fetch : (address : String) → (seconds : Nat) → Bytes → m (Option Collateral)
  /-- The present time in seconds, if the clock has one. -/
  now : m (Option Nat)
  /-- Whether collateral shows at some time that a quote is genuine. -/
  isGenuine : Bytes → Collateral → Nat → Bool

namespace RemoteVerifier

/-- The status of a quote for which there is no collateral. -/
def noCollateral : Int := -2

/-- The status of a quote that collateral does not show to be genuine. -/
def notGenuine : Int := -1

/-- **The verifier over a service** at an address, which has some seconds to answer. -/
def dcap {m : Type → Type} [Monad m] (service : CollateralService m) (address : String)
    (seconds : Nat) : RemoteVerifier m where
  name := "dcap"
  check quote := do
    match ← service.prepare with
    | .error detail => throw (.pluginLoadFailure "dcap" (.loader detail))
    | .ok () => pure ()
    let some collateral ← service.fetch address seconds quote
      | throw (.pluginRejected "dcap" noCollateral)
    let some time ← service.now
      | throw (.pluginRejected "dcap" notGenuine)
    if service.isGenuine quote collateral time then return ()
    else throw (.pluginRejected "dcap" notGenuine)

/-- How many seconds a service has when nothing is said about it. -/
def defaultSeconds : Nat := 10

end RemoteVerifier

end Enclave
