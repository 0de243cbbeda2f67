import Enclave.Attestation.Attest
import Enclave.Attestation.RemoteVerifier

/-!
# Verifying

A received quote is to prove that some enclave attested certain user data. The
verifier, an enclave itself, has the digest of the same data bound into a
quote of its own: only that quote shows that the digest went through trusted
hardware, so it is what the received quote is compared with. When both bind
the digest and have supported versions, a remote verifier has the last word,
and the result is the measurement that the received quote states.

All that is decided without the remote verifier is `Quote.matching`, a pure
function of the two byte strings.
-/

namespace Enclave

variable {m : Type → Type}

/-- **The local decision** on a received quote, given this enclave's own quote
over the same report data. The first condition that fails is the error. -/
def Quote.matching (data : ReportData) (received own : Bytes) : Except Error Quote := do
  let theirs ← Quote.parse received
  let ours ← Quote.parse own
  if !(isSupportedVersion theirs.version && isSupportedVersion ours.version) then
    throw (.unsupportedQuoteVersion theirs.version ours.version)
  if ours.reportData ≠ data then throw (.bindingMismatch .ownQuote)
  if theirs.reportData ≠ ours.reportData then throw (.bindingMismatch .receivedQuote)
  return theirs

/-- **Verifying a quote against user data.** -/
def Channel.verify [Monad m] (ch : Channel m) (userData received : Bytes)
    (remote : RemoteVerifier m) : ExceptT Error m Measurement := do
  let data := ReportData.ofClaims userData
  let own ← ch.quote data
  let quote ← liftExcept (Quote.matching data received own)
  remote.check quote.bytes
  return quote.measurement

end Enclave
