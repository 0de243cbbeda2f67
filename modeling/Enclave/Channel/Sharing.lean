import Enclave.Channel.Mock
import Enclave.Channel.Steps

/-!
# Callers that share an emulated enclave

Clones of an emulated enclave hold one report data between them and share one
session, though each keeps its own identity and version of quotes. Callers that
use such clones at the same time take their steps in any order; only who opens
a session has to wait until no other is open.

`Sharing` is the state of such a system, `Sharing.step` one step of one caller,
and `Sharing.run` what becomes of a schedule, which names whose turn it is.
-/

namespace Enclave

/-- **A step that was taken**, with the answer it got. -/
inductive ChannelStep where
  | openSession
  | write (file : AttestationFile) (bytes : Bytes) (answer : Except Error Nat)
  | read (file : AttestationFile) (limit : Nat) (answer : Except Error Bytes)
  | closeSession

/-- **Callers of clones of one emulated enclave.** -/
structure Sharing (α : Type) where
  /-- The report data held. -/
  held : ReportData
  /-- Who has the session, if it is open. -/
  holder : Option Nat := none
  /-- What each caller has yet to do. -/
  callers : List (Steps MockEnclave α)
  /-- The steps so far with who took them, in order. -/
  log : List (Nat × ChannelStep) := []

namespace Sharing

variable {α : Type}

/-- The system before its first step. -/
def start (held : ReportData) (callers : List (Steps MockEnclave α)) : Sharing α :=
  { held, callers }

/-- The system after a step of a caller that goes on with another program. -/
def goOn (s : Sharing α) (caller : Nat) (taken : ChannelStep) (next : Steps MockEnclave α) :
    Sharing α :=
  { s with callers := s.callers.set caller next, log := s.log ++ [(caller, taken)] }

/-- **One step of a caller**, unless it is done, or waits for the session. -/
def step (s : Sharing α) (caller : Nat) : Option (Sharing α) :=
  match s.callers[caller]? with
  | none => none
  | some (.done _) => none
  | some (.openSession _ next) =>
    if s.holder.isSome then none
    else some { s.goOn caller .openSession next with holder := some caller }
  | some (.write _ file b next) =>
    let (answer, held) := MockEnclave.accept file b s.held
    some { s.goOn caller (.write file b answer) (next answer) with held }
  | some (.read e file limit next) =>
    let answer := .ok ((e.render s.held file).take limit)
    some (s.goOn caller (.read file limit answer) (next answer))
  | some (.closeSession _ next) =>
    some { s.goOn caller .closeSession next with
      holder := if s.holder = some caller then none else s.holder }

/-- **A schedule.** A turn that comes to a caller that cannot step passes. -/
def run (s : Sharing α) (schedule : List Nat) : Sharing α :=
  schedule.foldl (fun s caller => (s.step caller).getD s) s

@[simp] theorem run_nil (s : Sharing α) : s.run [] = s := rfl

@[simp] theorem run_cons (s : Sharing α) (caller : Nat) (schedule : List Nat) :
    s.run (caller :: schedule) = ((s.step caller).getD s).run schedule := rfl

/-- What a caller ended with, once it is done. -/
def result? (s : Sharing α) (caller : Nat) : Option α :=
  match s.callers[caller]? with
  | some (.done a) => some a
  | _ => none

end Sharing

end Enclave
