import Enclave.Channel

/-!
# Programs cut at every use of a channel

An operation of the library runs in any monad. In `Steps` it does not run at
all: it becomes the tree of its uses of a channel, each with the continuation
that waits for the answer. Whoever schedules several callers can then let each
of them take one step at a time, and `Steps.perform` takes all steps of one
caller in a row.

A caller may use several channels, so that every use names one.
`Steps.perform_bindAndRead` says that nothing is lost: an exchange cut into its
steps, performed over a channel, is the exchange over that channel.
-/

namespace Enclave

/-- **A program cut at every use of a channel**, where `C` names channels. -/
inductive Steps (C α : Type) where
  /-- The program is over. -/
  | done (result : α)
  /-- A session is opened. -/
  | openSession (channel : C) (next : Steps C α)
  /-- Bytes are written to a file. -/
  | write (channel : C) (file : AttestationFile) (b : Bytes) (next : Except Error Nat → Steps C α)
  /-- A file is read. -/
  | read (channel : C) (file : AttestationFile) (limit : Nat)
    (next : Except Error Bytes → Steps C α)
  /-- The session is closed. -/
  | closeSession (channel : C) (next : Steps C α)

namespace Steps

variable {C α β : Type} {m : Type → Type}

/-- **One program after the other.** -/
def bind (p : Steps C α) (f : α → Steps C β) : Steps C β :=
  match p with
  | done a => f a
  | openSession c next => openSession c (next.bind f)
  | write c file b next => write c file b fun answer => (next answer).bind f
  | read c file limit next => read c file limit fun answer => (next answer).bind f
  | closeSession c next => closeSession c (next.bind f)

instance : Monad (Steps C) where
  pure := done
  bind := bind

theorem pure_eq_done (a : α) : (pure a : Steps C α) = done a := rfl

theorem bind_done (p : Steps C α) : p.bind done = p := by
  induction p with
  | done a => rfl
  | openSession c next ih => simp [bind, ih]
  | write c file b next ih => simp [bind, ih]
  | read c file limit next ih => simp [bind, ih]
  | closeSession c next ih => simp [bind, ih]

theorem bind_bind {γ : Type} (p : Steps C α) (f : α → Steps C β) (g : β → Steps C γ) :
    (p.bind f).bind g = p.bind fun a => (f a).bind g := by
  induction p with
  | done a => rfl
  | openSession c next ih => simp [bind, ih]
  | write c file b next ih => simp [bind, ih]
  | read c file limit next ih => simp [bind, ih]
  | closeSession c next ih => simp [bind, ih]

instance : LawfulMonad (Steps C) :=
  LawfulMonad.mk' (Steps C) (fun p => bind_done p) (fun _ _ => rfl) (fun p f g => bind_bind p f g)

/-- **The channel whose every use is a step.** -/
def channel (c : C) : Channel (Steps C) where
  openSession := openSession c (done ())
  write file b := ExceptT.mk (write c file b done)
  read file limit := ExceptT.mk (read c file limit done)
  closeSession := closeSession c (done ())

/-- **All steps of a program in a row**, over the channels that it names. -/
def perform [Monad m] (channels : C → Channel m) : Steps C α → m α
  | done a => pure a
  | openSession c next => do
    (channels c).openSession
    next.perform channels
  | write c file b next => do
    let answer ← ((channels c).write file b).run
    (next answer).perform channels
  | read c file limit next => do
    let answer ← ((channels c).read file limit).run
    (next answer).perform channels
  | closeSession c next => do
    (channels c).closeSession
    next.perform channels

theorem perform_bind [Monad m] [LawfulMonad m] (channels : C → Channel m) (p : Steps C α)
    (f : α → Steps C β) :
    (p >>= f).perform channels = p.perform channels >>= fun a => (f a).perform channels := by
  change (p.bind f).perform channels = _
  induction p with
  | done a => simp [bind, perform]
  | openSession c next ih => simp [bind, perform, ih]
  | write c file b next ih => simp [bind, perform, ih]
  | read c file limit next ih => simp [bind, perform, ih]
  | closeSession c next ih => simp [bind, perform, ih]

theorem perform_exchange [Monad m] [LawfulMonad m] (channels : C → Channel m) (c : C)
    (data : ReportData) (file : AttestationFile) (limit : Nat) :
    ((channel c).exchange data file limit).run.perform channels
      = ((channels c).exchange data file limit).run := by
  simp only [Channel.exchange, ExceptT.run_bind]
  rw [perform_bind]
  simp only [channel, ExceptT.run_mk, perform, bind_pure]
  congr 1
  funext answer
  cases answer with
  | error e => rfl
  | ok n =>
    by_cases h : n = 64
    · simp [h, perform]
    · simp [h]
      rfl

/-- **An exchange in steps is the exchange**, once its steps are taken over a
channel. -/
theorem perform_bindAndRead [Monad m] [LawfulMonad m] (channels : C → Channel m) (c : C)
    (data : ReportData) (file : AttestationFile) (limit : Nat) :
    ((channel c).bindAndRead data file limit).run.perform channels
      = ((channels c).bindAndRead data file limit).run := by
  simp only [Channel.bindAndRead, ExceptT.run_mk, perform_bind, perform_exchange]
  simp [channel, perform, pure_eq_done]

end Steps

end Enclave
