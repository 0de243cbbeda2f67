import Enclave.Channel.PseudoFiles
import Enclave.Channel.Steps

/-!
# Sessions over directories of attestation files

The attestation files of a machine are the same for everybody on it, and so is
the session: whoever opens one keeps out the users of every other directory
too. Within a session, transfers take their time. One that exceeds its limit is
given up: its caller goes on with an error, while the transfer itself is parked
and may still take effect whenever it ends. Therefore a session that was opened
first waits for every parked transfer, and only then does anything else.

`Expiry` is the state of such a system. Its moves are the turns of the callers,
the ends of the transfers and the expiries of their limits, in any order. What
a transfer ends with is up to the machine, which is represented by `Endings`.
-/

namespace Enclave

/-- **What transfers end with**, by the number of the transfer. -/
structure Endings where
  /-- The answer to a write. -/
  written : Nat → Except IoError Nat
  /-- The answer to a read. -/
  delivered : Nat → Except IoError Bytes

/-- **What a caller waits for.** -/
inductive Waiting where
  /-- Its own next turn. -/
  | turn
  /-- The list of parked transfers, having the session already. -/
  | parkedTransfers
  /-- The ends of some parked transfers, one after the other. -/
  | joining (transfers : List Nat)
  /-- The end of its own transfer. -/
  | transfer (number : Nat)
deriving DecidableEq, Repr

/-- **A caller**: what it has yet to do, and what it waits for. A transfer it
waits for belongs to the first step that it has yet to do. -/
structure Caller (α : Type) where
  rest : Steps PseudoFiles α
  waiting : Waiting := .turn

/-- **What can happen next.** -/
inductive Move where
  /-- A caller takes its turn. -/
  | turn (caller : Nat)
  /-- A transfer ends. -/
  | ends (transfer : Nat)
  /-- The transfer of a caller exceeds its limit. -/
  | expires (caller : Nat)
deriving DecidableEq, Repr

/-- **What happened.** -/
inductive SessionEvent where
  /-- A caller got the session. -/
  | opened (caller : Nat)
  /-- All parked transfers a caller waited for have ended. -/
  | joined (caller : Nat)
  /-- A caller started a write. -/
  | startedWrite (caller transfer : Nat)
  /-- A caller started a read. -/
  | startedRead (caller transfer : Nat)
  /-- A transfer ended. -/
  | ended (transfer : Nat)
  /-- A caller went on with what a transfer ended with. -/
  | answered (caller transfer : Nat)
  /-- A caller went on without a transfer, which was parked. -/
  | gaveUp (caller transfer : Nat)
  /-- A caller closed its session. -/
  | closed (caller : Nat)
deriving DecidableEq, Repr

/-- **Callers of directories of attestation files.** -/
structure Expiry (α : Type) where
  /-- Who has the session, if it is open. -/
  holder : Option Nat := none
  /-- How many transfers were started. They are numbered from zero. -/
  started : Nat := 0
  /-- The transfers that have ended. -/
  ended : List Nat := []
  /-- The transfers that were given up, since parked ones were last waited for. -/
  parked : List Nat := []
  /-- The callers. -/
  callers : List (Caller α)
  /-- What happened so far, in order. -/
  log : List SessionEvent := []

namespace Expiry

variable {α : Type}

/-- The system before its first move. -/
def start (callers : List (Steps PseudoFiles α)) : Expiry α :=
  { callers := callers.map fun rest => { rest } }

/-- The system with a caller changed and an event logged. -/
def goOn (s : Expiry α) (caller : Nat) (c : Caller α) (event : SessionEvent) : Expiry α :=
  { s with callers := s.callers.set caller c, log := s.log ++ [event] }

/-- The system with a transfer started. Its caller waits for it. -/
def startTransfer (s : Expiry α) (caller : Nat) (rest : Steps PseudoFiles α)
    (event : Nat → SessionEvent) : Expiry α :=
  { s.goOn caller ⟨rest, .transfer s.started⟩ (event s.started) with started := s.started + 1 }

/-- **The turn of a caller**, unless it is done or what it waits for has not
come yet. -/
def takeTurn (endings : Endings) (s : Expiry α) (caller : Nat) : Option (Expiry α) :=
  match s.callers[caller]? with
  | none => none
  | some ⟨rest, waiting⟩ =>
    match waiting, rest with
    | .turn, .openSession _ _ =>
      if s.holder.isSome then none
      else some { s.goOn caller ⟨rest, .parkedTransfers⟩ (.opened caller) with
        holder := some caller }
    | .parkedTransfers, _ =>
      some { s with
        callers := s.callers.set caller ⟨rest, .joining s.parked⟩
        parked := [] }
    | .joining (t :: ts), _ =>
      if t ∈ s.ended then some { s with callers := s.callers.set caller ⟨rest, .joining ts⟩ }
      else none
    | .joining [], .openSession _ next => some (s.goOn caller ⟨next, .turn⟩ (.joined caller))
    | .turn, .write .. => some (s.startTransfer caller rest (.startedWrite caller))
    | .turn, .read .. => some (s.startTransfer caller rest (.startedRead caller))
    | .transfer t, .write p file _ next =>
      if t ∈ s.ended then
        let answer := PseudoFiles.answer (p.path file) (.finished (endings.written t))
        some (s.goOn caller ⟨next answer, .turn⟩ (.answered caller t))
      else none
    | .transfer t, .read p file _ next =>
      if t ∈ s.ended then
        let answer := PseudoFiles.answer (p.path file) (.finished (endings.delivered t))
        some (s.goOn caller ⟨next answer, .turn⟩ (.answered caller t))
      else none
    | .turn, .closeSession _ next =>
      some { s.goOn caller ⟨next, .turn⟩ (.closed caller) with
        holder := if s.holder = some caller then none else s.holder }
    | _, _ => none

/-- **The end of a transfer** that was started and has not ended before. -/
def endTransfer (s : Expiry α) (t : Nat) : Option (Expiry α) :=
  if t < s.started ∧ t ∉ s.ended then
    some { s with ended := s.ended ++ [t], log := s.log ++ [.ended t] }
  else none

/-- **The expiry of the transfer of a caller**, if that has a limit. The
transfer is parked, even if it ends at that moment. -/
def expire (s : Expiry α) (caller : Nat) : Option (Expiry α) :=
  let park (p : PseudoFiles) (t : Nat) (next : Steps PseudoFiles α) : Option (Expiry α) :=
    if p.limit.isSome then
      some { s.goOn caller ⟨next, .turn⟩ (.gaveUp caller t) with parked := s.parked ++ [t] }
    else none
  match s.callers[caller]? with
  | some ⟨.write p file _ next, .transfer t⟩ =>
    park p t (next (PseudoFiles.answer (p.path file) .stalled))
  | some ⟨.read p file _ next, .transfer t⟩ =>
    park p t (next (PseudoFiles.answer (p.path file) .stalled))
  | _ => none

/-- **One move**, if it is possible. -/
def step (endings : Endings) (s : Expiry α) : Move → Option (Expiry α)
  | .turn caller => s.takeTurn endings caller
  | .ends t => s.endTransfer t
  | .expires caller => s.expire caller

/-- **A history of moves.** One that is not possible does not take place. -/
def run (endings : Endings) (s : Expiry α) (moves : List Move) : Expiry α :=
  moves.foldl (fun s move => (s.step endings move).getD s) s

@[simp] theorem run_nil (endings : Endings) (s : Expiry α) : s.run endings [] = s := rfl

@[simp] theorem run_cons (endings : Endings) (s : Expiry α) (move : Move) (moves : List Move) :
    s.run endings (move :: moves) = ((s.step endings move).getD s).run endings moves := rfl

/-- What a caller ended with, once it is done. -/
def result? (s : Expiry α) (caller : Nat) : Option α :=
  match s.callers[caller]? with
  | some ⟨.done a, _⟩ => some a
  | _ => none

end Expiry

end Enclave
