import Enclave.Certifier
import Enclave.Json.Printer

/-!
# Responses

What a command answers when it succeeds: an object under the name of the
command, which says what was written and how large it is, or what was found
out.
-/

namespace Enclave

/-- **The answer of a command.** -/
inductive Response where
  /-- A quote was written. -/
  | attest (quote : String) (quoteSize : Nat) (reportData : ReportData)
  /-- A quote was verified, by a kind of verifier. -/
  | verify (verifier : VerifierKind) (stated : Measurement)
  /-- A file was sealed. -/
  | sealing (output : String) (plaintextSize sealedSize : Nat) (layout : Layout)
  /-- A file was unsealed. -/
  | unsealing (output : String) (plaintextSize : Nat)
  /-- The measurement of the enclave. -/
  | measurement (value : Measurement) (mockSgx : Bool)
deriving DecidableEq, Repr

namespace Response

/-- **A response as a value.** -/
def toJson : Response → Json
  | .attest quote quoteSize reportData =>
    .object [("Attest", .object
      [("quote", .string quote),
        ("quote_size", .integer quoteSize),
        ("report_data", .string (Hex.encode reportData.toBytes))])]
  | .verify verifier stated =>
    .object [("Verify", .object
      [("verifier", .string verifier.name),
        ("measurement", .string stated.toText)])]
  | .sealing output plaintextSize sealedSize layout =>
    .object [("Seal", .object
      [("sealed", .string output),
        ("plaintext_size", .integer plaintextSize),
        ("sealed_size", .integer sealedSize),
        ("with_nonce", .bool (layout = .nonced))])]
  | .unsealing output plaintextSize =>
    .object [("Unseal", .object
      [("plaintext", .string output),
        ("plaintext_size", .integer plaintextSize)])]
  | .measurement value mockSgx =>
    .object [("Measurement", .object
      [("measurement", .string value.toText),
        ("mock_sgx", .bool mockSgx)])]

/-- **A response as it is printed.** -/
def toText (r : Response) : String := r.toJson.pretty

end Response

end Enclave
