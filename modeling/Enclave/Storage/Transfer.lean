import Enclave.Data.Bytes
import Enclave.IoError

/-!
# Transfers through open files

A file that is open answers call by call. A call on it may move fewer bytes
than it was asked to, may fail for now (`IoError.isTransient`) or for good,
and at the end of the file moves none. A transfer repeats calls until it has
what it wants.

Both transfers are functions of what the single calls answer, in order. A call
that failed for now is repeated and leaves no trace in the result.
-/

namespace Enclave.Transfer

/-- **Reading up to a number of bytes.** The answers are the bytes that the
single calls delivered; a delivery of nothing is the end of the file. -/
def collect (room : Nat) : List (Except IoError Bytes) → Except IoError Bytes
  | [] => .ok []
  | answer :: rest =>
    if room = 0 then .ok [] else
    match answer with
    | .ok [] => .ok []
    | .ok (b :: chunk) =>
      let part := (b :: chunk).take room
      (part ++ ·) <$> collect (room - part.length) rest
    | .error e => if e.isTransient then collect room rest else .error e

/-- **Writing a byte string.** The answers are the numbers of bytes that the
single calls accepted; accepting none ends the transfer. The result is how
many bytes were accepted in all. -/
def pour (remaining : Nat) : List (Except IoError Nat) → Except IoError Nat
  | [] => .ok 0
  | answer :: rest =>
    if remaining = 0 then .ok 0 else
    match answer with
    | .ok 0 => .ok 0
    | .ok (k + 1) =>
      let part := min (k + 1) remaining
      (part + ·) <$> pour (remaining - part) rest
    | .error e => if e.isTransient then pour remaining rest else .error e

end Enclave.Transfer
