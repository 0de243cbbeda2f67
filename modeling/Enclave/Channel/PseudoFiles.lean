import Enclave.Channel
import Enclave.Storage.FileSystem

/-!
# Attestation files in a directory

The channel of a real enclave: three files in a directory of their own, by
default `/dev/attestation`. A write goes over the beginning of a file and
neither creates nor shortens it.

A transfer can be given a limit of time. One that stalls is then given up: the
call fails, while the transfer itself waits on, and a later reader or writer
at the other end lets it complete.
-/

namespace Enclave

/-- **A directory of attestation files.** -/
structure PseudoFiles where
  /-- The path of the directory. -/
  root : String
  /-- The limit for a single transfer in milliseconds, if there is one. -/
  limit : Option Nat := none
deriving DecidableEq, Repr

namespace PseudoFiles

/-- Where the files of a real enclave are. -/
def defaultRoot : String := "/dev/attestation"

/-- The path of an attestation file. -/
def path (p : PseudoFiles) (file : AttestationFile) : String :=
  Path.join p.root file.name

/-- Whether this is the default directory, without limit. -/
def isDefault (p : PseudoFiles) : Bool :=
  Path.normal p.root = Path.normal defaultRoot && p.limit.isNone

/-- **The answer to a call** whose transfer ended in a certain way. One that
stalls can only have been given up, for without a limit there is no answer to
wait for. -/
def answer {α : Type} (path : String) : Outcome α → Except Error α
  | .finished (.ok a) => .ok a
  | .finished (.error e) => .error (.channelUnavailable path e)
  | .stalled => .error (.channelUnavailable path .expired)

/-- **The channel of a directory of attestation files.** -/
def channel (p : PseudoFiles) : Channel (StateM FileSystem) where
  openSession := pure ()
  write file b := ExceptT.mk fun fs =>
    let (outcome, fs') := fs.write (p.path file) b
    (answer (p.path file) outcome, fs')
  read file room := ExceptT.mk fun fs =>
    let (outcome, fs') := fs.read (p.path file) room
    (answer (p.path file) outcome, fs')
  closeSession := pure ()

end PseudoFiles

end Enclave
