import Enclave.Storage.Transfer

/-!
# Transfers call by call

Where `Transfer.collect` and `Transfer.pour` say what a transfer comes to, here it is
made. A transfer has a number of bytes as its goal. As long as they are not all moved
it makes one more call on the file, for the bytes that are left, and goes on with what
the call is answered.

Reading and writing differ only in what a call is. A call for reading is delivered some
bytes. A call for writing offers all the bytes that are left, of which some are
accepted, from the first one on. A file may answer each call as it likes, but delivers
no more than was asked for and accepts no more than was offered.
-/

namespace Enclave.Transfer

/-- **A call on a file**, as it is remembered. -/
structure Call where
  /-- How many bytes it was to move. -/
  asked : Nat
  /-- What it was answered: the bytes that it moved, if any. -/
  answer : Except IoError Bytes

/-- **Whether a transfer is at its end**, and how it got there. -/
inductive Status where
  | going
  /-- The goal was reached, or a call moved nothing. -/
  | done
  /-- A call failed for good. -/
  | failed (cause : IoError)
deriving DecidableEq, Repr

/-- **A transfer at some moment.** -/
structure State where
  /-- The calls so far. -/
  calls : List Call := []
  /-- The bytes that they have moved. -/
  moved : Bytes := []
  /-- Whether there will be more. -/
  status : Status := .going

namespace State

/-- **What becomes of a transfer** when a call is answered. -/
def receive (s : State) (asked : Nat) (answer : Except IoError Bytes) : State :=
  let calls := s.calls ++ [⟨asked, answer⟩]
  match answer with
  | .ok [] => { s with calls, status := .done }
  | .ok (b :: piece) => { s with calls, moved := s.moved ++ b :: piece }
  | .error e =>
    if e.isTransient then { s with calls } else { s with calls, status := .failed e }

/-- What a transfer that has ended is answered with, if it was for reading: the bytes. -/
def collected (s : State) : Except IoError Bytes :=
  match s.status with
  | .failed cause => .error cause
  | _ => .ok s.moved

/-- And if it was for writing: how many bytes there were. -/
def poured (s : State) : Except IoError Nat := s.collected.map List.length

end State

/-- **The calls of a transfer** with a goal: what each of them moves, by its number and
by the bytes that were moved before. -/
abbrev Calls (goal : Nat) :=
  (number : Nat) → (moved : Bytes) →
    Except IoError { piece : Bytes // piece.length ≤ goal - moved.length }

/-- **One round of a transfer.** -/
def step {goal : Nat} (call : Calls goal) (s : State) : State :=
  if s.status ≠ .going then s
  else if goal ≤ s.moved.length then { s with status := .done }
  else
    s.receive (goal - s.moved.length) ((call s.calls.length s.moved).map Subtype.val)

/-- **A transfer after a number of rounds.** -/
def after {goal : Nat} (call : Calls goal) : (rounds : Nat) → State
  | 0 => {}
  | rounds + 1 => step call (after call rounds)

/-- **A state that a transfer ends in.** -/
def Ends {goal : Nat} (call : Calls goal) (s : State) : Prop :=
  s.status ≠ .going ∧ ∃ rounds, after call rounds = s

/-- **A file that is open for reading**, as what it delivers, by the number of the call
and how many bytes it asks for. -/
abbrev Source := (number asked : Nat) → Except IoError { b : Bytes // b.length ≤ asked }

/-- **A file that is open for writing**, as how many bytes it accepts, by the number of
the call and the bytes that are offered. -/
abbrev Sink := (number : Nat) → (offered : Bytes) → Except IoError (Fin (offered.length + 1))

/-- **Reading up to a number of bytes**, call by call. -/
def reading (limit : Nat) (source : Source) : Calls limit :=
  fun number moved => source number (limit - moved.length)

/-- **Writing a byte string**, call by call. -/
def writing (b : Bytes) (sink : Sink) : Calls b.length :=
  fun number moved =>
    (sink number (b.drop moved.length)).map fun accepted =>
      ⟨(b.drop moved.length).take accepted,
        Nat.le_trans (List.length_take_le' _ _) (Nat.le_of_eq List.length_drop)⟩

/-- The file that gives some answers one after the other, cut to what is asked for, and
then is at its end. -/
def Source.ofAnswers (answers : List (Except IoError Bytes)) : Source :=
  fun number asked =>
    (answers[number]?.getD (.ok [])).map fun b => ⟨b.take asked, List.length_take_le asked b⟩

/-- The file that accepts some numbers of bytes one after the other, cut to what is
offered, and then nothing. -/
def Sink.ofAnswers (answers : List (Except IoError Nat)) : Sink :=
  fun number offered =>
    (answers[number]?.getD (.ok 0)).map fun k =>
      ⟨min k offered.length, Nat.lt_succ_of_le (Nat.min_le_right k offered.length)⟩

end Enclave.Transfer
