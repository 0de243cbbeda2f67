import Enclave.Channel.Expiry
import Enclave.Channel.Sharing
import Enclave.Machine
import Enclave.Main
import Enclave.Proofs.Attestation.Decision
import Enclave.Proofs.Sealing.Tampering
import Enclave.Proofs.Evidence.EmulatedEvidence
import Enclave.Proofs.Channel.Client
import Enclave.Proofs.Channel.Request
import Enclave.Proofs.Channel.EmulatedSession
import Enclave.Proofs.Channel.Isolation
import Enclave.Proofs.Channel.Course
import Enclave.Proofs.Channel.Fencing
import Enclave.Proofs.Attestation.Consultation
import Enclave.Proofs.Attestation.Agreement
import Enclave.Proofs.Sealing.KeyDerivation
import Enclave.Proofs.Channel.Protocol
import Enclave.Proofs.History
import Enclave.Attestation.Collateral
import Enclave.Proofs.Failure
import Enclave.Proofs.Sealing.Mistagging
import Enclave.Proofs.Command.Signal
import Enclave.Proofs.Storage.Contents
import Enclave.Proofs.Attestation.Selection
import Enclave.Proofs.Command.Atomicity
import Enclave.Proofs.Command.Persistence
import Enclave.Proofs.Command.Restart
import Enclave.Proofs.Attestation.Registration
import Enclave.Proofs.Sealing.Grammar
import Enclave.Proofs.Evidence.QuoteCodec
import Enclave.Proofs.Channel.EmulatedFiles
import Enclave.Proofs.Sealing.KeystreamReuse
import Enclave.Proofs.Evidence.MeasurementText
import Enclave.Proofs.Settings.Defaults
import Enclave.Proofs.Storage.Transfers
import Enclave.Proofs.Sealing.RequestCodec
import Enclave.Proofs.Command.VariableOrFlag
