import Enclave.Channel

/-!
# Scripted channels

A channel that answers from a script, whatever it is asked, and keeps a log of
the calls; that a session is closed goes without saying there. The script may
report any number of bytes as written and may return any bytes from a read,
also more than were asked for, so that it stands for every way in which
attestation files can misbehave.
-/

namespace Enclave

/-- **A call on a channel**, as it appears in a log. -/
inductive ChannelCall where
  | openSession
  | write (file : AttestationFile) (bytes : Bytes)
  | read (file : AttestationFile) (limit : Nat)
deriving DecidableEq, Repr

/-- **A script**: the answers still to be given, and the calls so far. -/
structure Script where
  /-- The answers to the next writes. -/
  writes : List (Except Error Nat)
  /-- The answers to the next reads. -/
  reads : List (Except Error Bytes)
  /-- The calls so far, in order. -/
  log : List ChannelCall := []

namespace Script

/-- The script with a call added to its log. -/
def record (s : Script) (call : ChannelCall) : Script :=
  { s with log := s.log ++ [call] }

/-- **A write**: the next answer, or everything taken once the script ends. -/
def write (file : AttestationFile) (b : Bytes) (s : Script) : Except Error Nat × Script :=
  let s := s.record (.write file b)
  match s.writes with
  | [] => (.ok b.length, s)
  | answer :: rest => (answer, { s with writes := rest })

/-- **A read**: the next answer, or nothing once the script ends. -/
def read (file : AttestationFile) (limit : Nat) (s : Script) : Except Error Bytes × Script :=
  let s := s.record (.read file limit)
  match s.reads with
  | [] => (.ok [], s)
  | answer :: rest => (answer, { s with reads := rest })

/-- **The channel that follows its script.** -/
def channel : Channel (StateM Script) where
  openSession := modify (·.record .openSession)
  write file b := ExceptT.mk (write file b)
  read file limit := ExceptT.mk (read file limit)
  closeSession := pure ()

end Script

end Enclave
