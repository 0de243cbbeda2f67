import Enclave.Channel
import Enclave.Evidence.Quote

/-!
# Attesting

An enclave proves something about itself by having it bound into a quote. To
attest claims is to bind their digest; the quote is handed on as it was read,
without a look inside. The enclave's own measurement is found in a quote that
binds nothing.
-/

namespace Enclave

variable {m : Type → Type}

namespace Channel

/-- **A quote that binds some report data.** -/
def quote [Monad m] (ch : Channel m) (data : ReportData) : ExceptT Error m Bytes :=
  ch.bindAndRead data .quote Quote.maxBytes

/-- **A quote that binds the digest of claims.** -/
def attest [Monad m] (ch : Channel m) (claims : Bytes) : ExceptT Error m Bytes :=
  ch.quote (.ofClaims claims)

/-- **The measurement of the enclave behind a channel**, as its quotes state
it. -/
def measurement [Monad m] (ch : Channel m) : ExceptT Error m Measurement := do
  let raw ← ch.quote .zero
  let quote ← liftExcept (Quote.parse raw)
  return quote.measurement

end Channel

end Enclave
