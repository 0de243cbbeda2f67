import Enclave.Channel.Steps
import Mathlib.Tactic.Choose

/-!
# Clients of channels

A program cut into steps could do anything with a channel, also write without a
session or read what somebody else bound. The programs of the library never do:
whatever they want of a channel they get through one exchange in a session of
its own. `Client` is the type of the programs that keep to that, trees with an
exchange at every node, and `Client.steps` cuts them further into steps.

What becomes of clients that share channels is told by the sessions they had,
one after the other (`InTurn`), and it is up to the channels what is due in a
session.

That a program built up by `do` is a client is shown piece by piece. `Orderly`
says it of a program that can fail, and is closed under everything the
operations of the library are made of. `performed` goes the other way: it takes
all steps of such a program in a row, and commutes with the same pieces.
-/

namespace Enclave

/-- **What a session is opened for**: report data to bind, a file to read, and
the most bytes wanted of it. -/
structure Exchange where
  /-- The report data that is written. -/
  data : ReportData
  /-- The file that is read. -/
  file : AttestationFile
  /-- The most bytes that are read. -/
  limit : Nat
deriving DecidableEq, Repr

/-- **A program that uses channels only in whole sessions**, where `C` names
channels. -/
inductive Client (C α : Type) where
  /-- The program is over. -/
  | done (result : α)
  /-- One exchange in a session, and what follows its answer. -/
  | ask (channel : C) (exchange : Exchange) (next : Except Error Bytes → Client C α)

namespace Client

variable {C α β : Type}

/-- **One client after the other.** -/
def bind (p : Client C α) (f : α → Client C β) : Client C β :=
  match p with
  | done a => f a
  | ask c x next => ask c x fun answer => (next answer).bind f

/-- **A client whose exchanges are all of a kind.** -/
inductive Asks (P : Exchange → Prop) : Client C α → Prop
  | done (a : α) : Asks P (done a)
  | ask (c : C) (x : Exchange) (next : Except Error Bytes → Client C α) (hx : P x)
    (h : ∀ answer, Asks P (next answer)) : Asks P (ask c x next)

theorem Asks.bind {P : Exchange → Prop} {p : Client C α} {f : α → Client C β}
    (hp : p.Asks P) (hf : ∀ a, (f a).Asks P) : (p.bind f).Asks P := by
  induction hp with
  | done a => exact hf a
  | ask c x next hx _ ih => exact .ask c x _ hx ih

/-! ## Clients in steps -/

/-- **A client cut into steps.** -/
def steps : Client C α → Steps C α
  | done a => .done a
  | ask c x next =>
    ((Steps.channel c).bindAndRead x.data x.file x.limit).run >>= fun answer => (next answer).steps

/-- The last step of a session, once its answer is known. -/
def leave (c : C) (next : Except Error Bytes → Client C α) (answer : Except Error Bytes) :
    Steps C α :=
  .closeSession c (next answer).steps

/-- What is left of a session after the answer to its write. -/
def written (c : C) (x : Exchange) (next : Except Error Bytes → Client C α) :
    Except Error Nat → Steps C α
  | .ok n =>
    if n = 64 then .read c x.file x.limit (leave c next)
    else leave c next
      (.error (.shortTransfer .write AttestationFile.userReportData.name 64 n))
  | .error e => leave c next (.error e)

/-- What is left of a session that was just opened. -/
def opened (c : C) (x : Exchange) (next : Except Error Bytes → Client C α) : Steps C α :=
  .write c .userReportData x.data.toBytes (written c x next)

/-- **The steps of a session**: opening, writing, reading if the write took
everything, closing. -/
theorem steps_ask (c : C) (x : Exchange) (next : Except Error Bytes → Client C α) :
    (ask c x next).steps = .openSession c (opened c x next) := by
  show Steps.openSession c (Steps.write c _ _ _) = Steps.openSession c (Steps.write c _ _ _)
  congr 2
  funext answer
  cases answer with
  | error e => rfl
  | ok n =>
    show Steps.bind (Steps.bind (if n = 64 then _ else _) _) _ = if n = 64 then _ else _
    split <;> rfl

/-- Nothing but a client that is done has no step to take. -/
theorem eq_done_of_steps {p : Client C α} {a : α} (h : p.steps = .done a) : p = .done a := by
  cases p with
  | done b =>
    cases h
    rfl
  | ask c x next =>
    rw [steps_ask] at h
    cases h

theorem steps_bind (p : Client C α) (f : α → Client C β) :
    (p.bind f).steps = p.steps >>= fun a => (f a).steps := by
  induction p with
  | done a => rfl
  | ask c x next ih =>
    show _ >>= (fun answer => ((next answer).bind f).steps) = (_ >>= _) >>= _
    rw [bind_assoc]
    exact congrArg _ (funext ih)

end Client

/-! ## Clients in turn -/

/-- **A session that was had**, from its opening to its closing. What happened in
it is recorded as events of some sort. -/
structure Session (C ε : Type) where
  /-- Who had the session. -/
  caller : Nat
  /-- The channel that was used. -/
  channel : C
  /-- What the session was opened for. -/
  exchange : Exchange
  /-- What happened, in order. -/
  events : List ε
  /-- What its caller went on with. -/
  answer : Except Error Bytes

/-- **Clients after sessions in turn**: one of them after the other has had a
session, each of them as is due, and these are left. -/
inductive InTurn {C ε α : Type} (Due : Session C ε → Prop) (clients : List (Client C α)) :
    List (Session C ε) → List (Client C α) → Prop
  | none : InTurn Due clients [] clients
  | one {sessions : List (Session C ε)} {left : List (Client C α)}
    (before : InTurn Due clients sessions left) (t : Session C ε)
    (next : Except Error Bytes → Client C α) (due : Due t)
    (client : left[t.caller]? = some (.ask t.channel t.exchange next)) :
    InTurn Due clients (sessions ++ [t]) (left.set t.caller (next t.answer))

namespace InTurn

variable {C ε α : Type} {Due : Session C ε → Prop} {clients left : List (Client C α)}
  {sessions : List (Session C ε)}

/-- Nobody joins or goes away. -/
theorem length_left (h : InTurn Due clients sessions left) : left.length = clients.length := by
  induction h with
  | none => rfl
  | one _ _ _ _ _ ih => rw [List.length_set, ih]

/-- All sessions were as is due. -/
theorem due (h : InTurn Due clients sessions left) : ∀ t ∈ sessions, Due t := by
  induction h with
  | none => exact fun t ht => absurd ht List.not_mem_nil
  | one _ t _ due _ ih =>
    intro t' ht'
    rcases List.mem_append.mp ht' with ht' | ht'
    · exact ih t' ht'
    · rwa [List.mem_singleton.mp ht']

/-- All sessions were for exchanges of the clients. -/
theorem asks {P : Exchange → Prop} (h : InTurn Due clients sessions left)
    (hclients : ∀ p ∈ clients, p.Asks P) :
    (∀ t ∈ sessions, P t.exchange) ∧ ∀ p ∈ left, p.Asks P := by
  induction h with
  | none => exact ⟨fun t ht => absurd ht List.not_mem_nil, hclients⟩
  | one _ t next _ client ih =>
    obtain ⟨hsessions, hleft⟩ := ih
    cases hleft _ (List.mem_of_getElem? client) with
    | ask _ _ _ hx hnext =>
      refine ⟨fun t' ht' => ?_, fun p hp => ?_⟩
      · rcases List.mem_append.mp ht' with ht' | ht'
        · exact hsessions t' ht'
        · rwa [List.mem_singleton.mp ht']
      · rcases List.mem_or_eq_of_mem_set hp with hp | rfl
        · exact hleft p hp
        · exact hnext _

end InTurn

/-- An entry that is replaced after a map. -/
theorem getElem?_set_map {β γ : Type} {l : List β} {k : Nat} {a : β} {f : β → γ} {b : γ}
    (hk : l[k]? = some a) : ((l.map f).set k b)[k]? = some b := by
  refine List.getElem?_set_self ?_
  rw [List.length_map]
  exact (List.getElem?_eq_some_iff.mp hk).1

/-! ## Programs that are clients -/

namespace Steps

variable {C α β : Type} {P : Exchange → Prop}

/-- **A program that can fail and is a client**, all of whose exchanges are of a
kind. -/
def Orderly (P : Exchange → Prop) (x : ExceptT Error (Steps C) α) : Prop :=
  ∃ p : Client C (Except Error α), p.Asks P ∧ p.steps = x.run

/-- A decision that needs no channel. -/
theorem orderly_liftExcept (r : Except Error α) :
    Orderly P (liftExcept r : ExceptT Error (Steps C) α) :=
  ⟨.done r, .done r, by cases r <;> rfl⟩

/-- A computation that uses no channel. -/
theorem orderly_lift (a : α) : Orderly P (liftM (pure a : Steps C α) : ExceptT Error (Steps C) α) :=
  ⟨.done (.ok a), .done _, rfl⟩

/-- **An exchange in a session.** -/
theorem orderly_bindAndRead (c : C) (x : Exchange) (hx : P x) :
    Orderly P ((channel c).bindAndRead x.data x.file x.limit) :=
  ⟨.ask c x .done, .ask c x _ hx .done, bind_pure _⟩

/-- **One program after the other.** -/
theorem orderly_bind {x : ExceptT Error (Steps C) α} {f : α → ExceptT Error (Steps C) β}
    (hx : Orderly P x) (hf : ∀ a, Orderly P (f a)) : Orderly P (x >>= f) := by
  obtain ⟨p, hp, hsteps⟩ := hx
  choose q hq hqsteps using hf
  refine ⟨p.bind fun | .ok a => q a | .error e => .done (.error e), ?_, ?_⟩
  · refine hp.bind (fun answer => ?_)
    cases answer with
    | ok a => exact hq a
    | error e => exact .done _
  · rw [Client.steps_bind, hsteps, ExceptT.run_bind]
    congr 1
    funext answer
    cases answer with
    | ok a => exact hqsteps a
    | error e => rfl

/-! ## All steps in a row -/

variable {m : Type → Type} [Monad m] (channels : C → Channel m)

/-- **A program that can fail, with all its steps taken in a row.** -/
def performed (x : ExceptT Error (Steps C) α) : ExceptT Error m α :=
  ExceptT.mk (x.run.perform channels)

@[simp] theorem performed_pure (a : α) :
    performed channels (pure a : ExceptT Error (Steps C) α) = pure a := rfl

@[simp] theorem performed_throw (e : Error) :
    performed channels (throw e : ExceptT Error (Steps C) α) = throw e := rfl

@[simp] theorem performed_liftExcept (r : Except Error α) :
    performed channels (liftExcept r : ExceptT Error (Steps C) α) = liftExcept r := by
  cases r <;> rfl

variable [LawfulMonad m]

@[simp] theorem performed_lift (a : α) :
    performed channels (liftM (pure a : Steps C α) : ExceptT Error (Steps C) α)
      = liftM (pure a : m α) := by
  refine ExceptT.ext ?_
  show pure _ = ExceptT.run (ExceptT.lift (pure a))
  rw [ExceptT.run_lift, map_pure]

@[simp] theorem performed_bindAndRead (c : C) (data : ReportData) (file : AttestationFile)
    (limit : Nat) :
    performed channels ((Steps.channel c).bindAndRead data file limit)
      = (channels c).bindAndRead data file limit :=
  ExceptT.ext (perform_bindAndRead channels c data file limit)

@[simp] theorem performed_bind (x : ExceptT Error (Steps C) α)
    (f : α → ExceptT Error (Steps C) β) :
    performed channels (x >>= f) = performed channels x >>= fun a => performed channels (f a) := by
  refine ExceptT.ext ?_
  show (ExceptT.run (x >>= f)).perform channels = _
  rw [ExceptT.run_bind, ExceptT.run_bind, perform_bind]
  show x.run.perform channels >>= _ = x.run.perform channels >>= _
  congr 1
  funext answer
  cases answer <;> rfl

end Steps

end Enclave
