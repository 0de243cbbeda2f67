import Enclave.IoError

/-!
# What can go wrong

Every way in which attesting, verifying, sealing and unsealing can fail. A
failure names its cause and the numbers that belong to it; its wording is one
function, `Error.message`, and callers that branch on the sort of failure use
`Error.kind`.

Only one failure speaks of an attacker. A sealed blob whose tag does not fit
was changed or comes from another enclave (`Error.isTampering`); everything
else is an operational problem and must not be mistaken for it.
-/

namespace Enclave

/-- **Why a quote or report has no readable layout.** -/
inductive EvidenceFault where
  /-- The quote ends before its body does. -/
  | tooShort (size : Nat)
  /-- The quote is larger than any quote. -/
  | tooLong (size : Nat)
  /-- A report does not have the size of a report. -/
  | reportSize (size : Nat)
  /-- A part of a report does not lie within its bytes. -/
  | reportLayout
  /-- A fault described in words. -/
  | other (detail : String)
deriving DecidableEq, Repr

/-- The wording of a fault in a quote or report. -/
def EvidenceFault.message : EvidenceFault → String
  | tooShort size => s!"quote is {size} bytes, at least 432 required"
  | tooLong size => s!"quote is {size} bytes, at most 8192 allowed"
  | reportSize size => s!"report is {size} bytes, expected 432"
  | reportLayout => "report layout"
  | other detail => detail

/-- **Why a sealed blob has no readable layout.** -/
inductive BlobFault where
  /-- A field ends beyond the end of the blob. -/
  | truncated (needed size : Nat)
  /-- The ciphertext is not as long as the length field says. -/
  | wrongLength (declared carried : Nat)
  /-- A fault described in words. -/
  | other (detail : String)
deriving DecidableEq, Repr

/-- The wording of a fault in a sealed blob. -/
def BlobFault.message : BlobFault → String
  | truncated needed size => s!"truncated: needs at least {needed} bytes, got {size}"
  | wrongLength declared carried =>
    s!"length field says {declared} bytes of ciphertext, blob carries {carried}"
  | other detail => detail

/-- **Which quote carries other report data than it should.** -/
inductive BindingFault where
  /-- The quote this enclave made itself. -/
  | ownQuote
  /-- The quote that was to be verified. -/
  | receivedQuote
  /-- A mismatch described in words. -/
  | other (detail : String)
deriving DecidableEq, Repr

/-- The wording of a mismatch. -/
def BindingFault.message : BindingFault → String
  | ownQuote => "local quote does not carry the user data hash"
  | receivedQuote => "received quote was produced for different user data"
  | other detail => detail

/-- **Why a measurement is not available.** -/
inductive MeasurementFault where
  /-- Its file cannot be read. -/
  | unreadable (path : String) (cause : IoError)
  /-- There are not 32 bytes of it. -/
  | wrongSize (size : Nat)
  /-- A fault described in words. -/
  | other (detail : String)
deriving DecidableEq, Repr

/-- The wording of a fault in a measurement. -/
def MeasurementFault.message : MeasurementFault → String
  | unreadable path cause => s!"{path}: {cause.text}"
  | wrongSize size => s!"expected 32 bytes, got {size}"
  | other detail => detail

/-- **Why a remote verifier is not available.** -/
inductive LoadFault where
  /-- Nothing has the name; these names are known. -/
  | unregistered (known : List String)
  /-- The library does not export the symbol. -/
  | noSymbol (symbol detail : String)
  /-- Loading failed, as the loader words it. -/
  | loader (detail : String)
deriving DecidableEq, Repr

/-- The wording of a failure to load. -/
def LoadFault.message : LoadFault → String
  | unregistered known =>
    "no verifier registered (known: " ++ ", ".intercalate known ++ ")"
  | noSymbol symbol detail => s!"symbol `{symbol}`: {detail}"
  | loader detail => detail

/-- **Why settings are refused.** -/
inductive SettingsFault where
  /-- The payload limit is zero or has no place in a length field. -/
  | payloadLimit
  /-- The entry point of the verification library has no name. -/
  | emptySymbol
  /-- The verifier that accepts everything is selected outside mock mode. -/
  | mockVerifier
  /-- No verifier has this name. -/
  | unknownVerifier (name : String)
  /-- A fault described in words. -/
  | other (detail : String)
deriving DecidableEq, Repr

/-- The wording of a fault in the settings. -/
def SettingsFault.message : SettingsFault → String
  | payloadLimit => "max_payload must be between 1 and 4294967295 bytes"
  | emptySymbol => "verifier_symbol must not be empty"
  | mockVerifier => "the mock verifier accepts every quote and is only allowed with mock_sgx"
  | unknownVerifier name => s!"unknown verifier `{name}`"
  | other detail => detail

/-- **The direction of a transfer** through an attestation file. -/
inductive Direction where
  | write
  | read
  /-- A transfer described in words. -/
  | other (detail : String)
deriving DecidableEq, Repr

/-- The name of a direction in messages. -/
def Direction.name : Direction → String
  | write => "write"
  | read => "read"
  | other detail => detail

/-- **Every failure of the library.** -/
inductive Error where
  /-- An attestation file cannot be used. -/
  | channelUnavailable (path : String) (cause : IoError)
  /-- A transfer moved another number of bytes than the field has. -/
  | shortTransfer (direction : Direction) (file : String) (expected actual : Nat)
  /-- A quote carries other report data than the user data calls for. -/
  | bindingMismatch (fault : BindingFault)
  /-- One of two quotes has a version that is not supported. -/
  | unsupportedQuoteVersion (expected own : UInt16)
  /-- The tag of a sealed blob does not fit its ciphertext. -/
  | authenticationFailure
  /-- A remote verifier cannot be had. -/
  | pluginLoadFailure (name : String) (fault : LoadFault)
  /-- A remote verifier does not trust the quote. -/
  | pluginRejected (name : String) (status : Int)
  /-- A quote or report has no readable layout. -/
  | malformedQuote (fault : EvidenceFault)
  /-- A sealed blob has no readable layout. -/
  | malformedBlob (fault : BlobFault)
  /-- A payload exceeds the limit. -/
  | payloadTooLarge (size max : Nat)
  /-- A measurement is not available. -/
  | invalidMeasurement (fault : MeasurementFault)
  /-- The cipher could not be set up. -/
  | cipher (detail : String)
  /-- The settings are refused. -/
  | config (fault : SettingsFault)
deriving DecidableEq, Repr

/-- **The sorts of failure** that callers tell apart. -/
inductive ErrorKind where
  | channelUnavailable
  | bindingMismatch
  | unsupportedQuoteVersion
  | authenticationFailure
  | pluginLoadFailure
  | pluginRejected
  | malformedQuote
  | malformedBlob
  | payloadTooLarge
  | invalidMeasurement
  | cipher
  | config
deriving DecidableEq, Repr

namespace Error

/-- **The sort of a failure.** A short transfer counts as an unavailable
channel: in both cases the attestation files do not do their work. -/
def kind : Error → ErrorKind
  | channelUnavailable .. => .channelUnavailable
  | shortTransfer .. => .channelUnavailable
  | bindingMismatch .. => .bindingMismatch
  | unsupportedQuoteVersion .. => .unsupportedQuoteVersion
  | authenticationFailure => .authenticationFailure
  | pluginLoadFailure .. => .pluginLoadFailure
  | pluginRejected .. => .pluginRejected
  | malformedQuote .. => .malformedQuote
  | malformedBlob .. => .malformedBlob
  | payloadTooLarge .. => .payloadTooLarge
  | invalidMeasurement .. => .invalidMeasurement
  | cipher .. => .cipher
  | config .. => .config

/-- **Evidence of tampering**: only a tag that does not fit. -/
def isTampering : Error → Bool
  | authenticationFailure => true
  | _ => false

/-- **The wording of a failure.** -/
def message : Error → String
  | channelUnavailable path cause =>
    s!"attestation channel unavailable ({path}): {cause.text}"
  | shortTransfer direction file expected actual =>
    s!"short {direction.name} on `{file}`: expected {expected} bytes, got {actual}"
  | bindingMismatch fault => s!"report data binding mismatch: {fault.message}"
  | unsupportedQuoteVersion expected own =>
    s!"unsupported quote version: expected {expected}, local {own}"
  | authenticationFailure => "sealed blob failed authentication (corrupted or tampered)"
  | pluginLoadFailure name fault =>
    s!"failed to load remote verifier `{name}`: {fault.message}"
  | pluginRejected name status =>
    s!"remote verifier `{name}` rejected the quote with status {status}"
  | malformedQuote fault => s!"malformed quote: {fault.message}"
  | malformedBlob fault => s!"malformed sealed blob: {fault.message}"
  | payloadTooLarge size max => s!"payload of {size} bytes exceeds the limit of {max} bytes"
  | invalidMeasurement fault => s!"invalid measurement: {fault.message}"
  | cipher detail => s!"cipher setup failed: {detail}"
  | config fault => s!"config error: {fault.message}"

/-- The failure of a file that lies behind a failure of the library, if any. -/
def cause? : Error → Option IoError
  | channelUnavailable _ cause => some cause
  | _ => none

end Error

end Enclave
