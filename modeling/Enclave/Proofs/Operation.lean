import Enclave.Certifier
import Enclave.Proofs.Outcome

/-!
# The operations of a certifier, as values

A history is a list of operations, and what may happen between two calls is
anything that can be asked of a certifier. To speak of that, an operation is
made a value here: what is asked for, together with what is handed over. It
runs on every certifier and in every world (`Operation.run`).

The remote verifier of a verification enters by its word on every quote. Since
each verification has its own, a verifier that changes its mind from call to
call is covered too.

All operations are put together from a few pieces, so that what is said of
programs in general need only be checked for the pieces (`Compositional.run`).
-/

namespace Enclave

variable {m : Type → Type}

/-- **A remote verifier that is known by its word** on every quote. -/
def RemoteVerifier.ofVerdict [Monad m] (name : String) (verdict : Bytes → Except Error Unit) :
    RemoteVerifier m where
  name
  check quote := liftExcept (verdict quote)

/-- **What an operation yields** when it succeeds. -/
inductive Product where
  /-- A quote, a sealed blob or a plaintext. -/
  | bytes (b : Bytes)
  /-- The measurement of an enclave. -/
  | measurement (m : Measurement)
  /-- A sealing key. -/
  | key (k : SealKey)

/-- **An operation of a certifier** with what it is given. -/
inductive Operation where
  /-- A quote over claims. -/
  | attest (claims : Bytes)
  /-- The decision on a received quote. -/
  | verify (userData received : Bytes) (name : String) (verdict : Bytes → Except Error Unit)
  /-- Sealing into a layout. -/
  | sealAs (layout : Layout) (plaintext : Bytes)
  /-- Unsealing from a layout. -/
  | unsealAs (layout : Layout) (data : Bytes)
  /-- The measurement of the enclave behind the channel. -/
  | measurement
  /-- The sealing key for a measurement. -/
  | deriveKey (identity : Measurement)

/-- **An operation run on a certifier.** -/
def Operation.run [Monad m] (c : Certifier m) : Operation → ExceptT Error m Product
  | attest claims => do return .bytes (← c.attest claims)
  | verify userData received name verdict => do
    return .measurement (← c.verify userData received (.ofVerdict name verdict))
  | sealAs layout plaintext => do return .bytes (← c.sealAs layout plaintext)
  | unsealAs layout data => do return .bytes (← c.unsealAs layout data)
  | measurement => do return .measurement (← c.channel.measurement)
  | deriveKey identity => do return .key (← Enclave.deriveKey c.channel c.requester identity)

/-! ## What all operations have in common -/

/-- **A kind of programs** to which everything belongs that is put together from
programs of that kind. -/
structure Compositional [Monad m] (Q : {α : Type} → ExceptT Error m α → Prop) : Prop where
  /-- A decision that needs no channel is of the kind. -/
  liftExcept {α : Type} (r : Except Error α) : Q (liftExcept r : ExceptT Error m α)
  /-- So is one program of the kind after another. -/
  bind {α β : Type} {x : ExceptT Error m α} {f : α → ExceptT Error m β} (hx : Q x)
    (hf : ∀ a, Q (f a)) : Q (x >>= f)

section Compositional

variable [Monad m] {Q : {α : Type} → ExceptT Error m α → Prop} (hQ : Compositional Q)
include hQ

theorem Compositional.pure {α : Type} (a : α) : Q (pure a : ExceptT Error m α) :=
  hQ.liftExcept (.ok a)

theorem Compositional.throw {α : Type} (e : Error) : Q (throw e : ExceptT Error m α) :=
  hQ.liftExcept (.error e)

theorem Compositional.deriveKey {ch : Channel m} {keys : KeyRequester m} (identity : Measurement)
    (hreport : ∀ data, Q (ch.bindAndRead data .report 432))
    (hkeys : ∀ request, Q (liftM (keys.getKey request) : ExceptT Error m SealKey)) :
    Q (deriveKey ch keys identity) := by
  refine hQ.bind (hreport _) (fun raw => ?_)
  split
  · exact hQ.bind (hQ.liftExcept _) fun report => hkeys _
  · exact hQ.throw _

/-- **Operations are put together** from quotes, reports, keys, nonces and
decisions that need no channel. -/
theorem Compositional.run {c : Certifier m} (hquote : ∀ data, Q (c.channel.quote data))
    (hreport : ∀ data, Q (c.channel.bindAndRead data .report 432))
    (hkeys : ∀ request, Q (liftM (c.requester.getKey request) : ExceptT Error m SealKey))
    (hnonce : Q (liftM c.freshNonce : ExceptT Error m Block)) (operation : Operation) :
    Q (operation.run c) := by
  have hkey : Q c.key := hQ.deriveKey c.measurement hreport hkeys
  cases operation with
  | attest claims => exact hQ.bind (hquote _) fun quote => hQ.pure _
  | verify userData received name verdict =>
    refine hQ.bind ?_ fun m => hQ.pure _
    exact hQ.bind (hquote _) fun own => hQ.bind (hQ.liftExcept _) fun quote =>
      hQ.bind (hQ.liftExcept _) fun _ => hQ.pure _
  | sealAs layout plaintext =>
    refine hQ.bind ?_ fun sealed => hQ.pure _
    refine hQ.bind (hQ.liftExcept _) fun _ => hQ.bind hkey fun key => ?_
    cases layout with
    | legacy => exact hQ.pure _
    | nonced => exact hQ.bind hnonce fun nonce => hQ.pure _
  | unsealAs layout data =>
    refine hQ.bind ?_ fun plaintext => hQ.pure _
    refine hQ.bind (hQ.liftExcept _) fun blob =>
      hQ.bind (hQ.liftExcept _) fun _ => hQ.bind hkey fun key => ?_
    split
    · exact hQ.pure _
    · exact hQ.throw _
  | measurement =>
    refine hQ.bind ?_ fun m => hQ.pure _
    exact hQ.bind (hquote _) fun raw => hQ.bind (hQ.liftExcept _) fun quote => hQ.pure _
  | deriveKey identity => exact hQ.bind (hQ.deriveKey identity hreport hkeys) fun key => hQ.pure _

end Compositional

/-! ## What operations keep -/

section Keeps

variable {σ α : Type} {P : σ → Prop}

/-- **A program that keeps a property of the world**, whatever it answers. -/
def Keeps (P : σ → Prop) (x : ExceptT Error (StateM σ) α) : Prop :=
  ∀ w, P w → P (worldAfter x w)

theorem compositional_keeps : Compositional (m := StateM σ) (Keeps P) where
  liftExcept r w hw := by rwa [worldAfter_liftExcept]
  bind {α β x f} hx hf w hw := by
    rw [worldAfter_bind]
    cases answerOf x w with
    | ok a => exact hf a _ (hx w hw)
    | error e => exact hx w hw

/-- A session keeps what its four actions keep. -/
theorem keeps_bindAndRead {ch : Channel (StateM σ)}
    (hopen : ∀ w, P w → P (ch.openSession w).2) (hwrite : ∀ file b, Keeps P (ch.write file b))
    (hread : ∀ file limit, Keeps P (ch.read file limit))
    (hclose : ∀ w, P w → P (ch.closeSession w).2) (data : ReportData) (file : AttestationFile)
    (limit : Nat) : Keeps P (ch.bindAndRead data file limit) := by
  have hexchange : Keeps P (ch.exchange data file limit) := by
    refine compositional_keeps.bind (hwrite _ _) (fun n => ?_)
    split
    · exact hread _ _
    · exact compositional_keeps.throw _
  intro w hw
  exact hclose _ (hexchange _ (hopen w hw))

end Keeps

/-! ## What operations yield -/

namespace Operation

variable {σ : Type} (c : Certifier (StateM σ)) (w : σ)

/-- What attesting yields is the quote. -/
theorem answerOf_run_attest (claims : Bytes) :
    answerOf ((attest claims).run c) w = (answerOf (c.channel.attest claims) w).map .bytes := by
  show answerOf (c.channel.attest claims >>= fun b => pure (Product.bytes b)) w = _
  rw [answerOf_bind]
  cases answerOf (c.channel.attest claims) w <;> rfl

/-- What verifying yields is the measurement. -/
theorem answerOf_run_verify (userData received : Bytes) (name : String)
    (verdict : Bytes → Except Error Unit) :
    answerOf ((verify userData received name verdict).run c) w
      = (answerOf (c.channel.verify userData received (.ofVerdict name verdict)) w).map
          .measurement := by
  show answerOf (c.channel.verify userData received _
    >>= fun m => pure (Product.measurement m)) w = _
  rw [answerOf_bind]
  cases answerOf (c.channel.verify userData received (.ofVerdict name verdict)) w <;> rfl

end Operation

end Enclave
