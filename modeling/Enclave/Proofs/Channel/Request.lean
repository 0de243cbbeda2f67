import Enclave.Proofs.Channel.Client
import Enclave.Proofs.Operation

/-!
# Requests in steps

A caller who shares a channel with others hands requests to a certifier, one
after the other. `Request` is an operation together with the certifier that is
asked, but for the channel, which is only named: the same request can so be run
over a channel, and be cut into steps.

Both come to the same. Cut into steps, a request is a client that asks for
nothing but whole quotes and whole reports (`Request.orderly_run`), and with its
steps taken in a row it is the request over the channel (`Request.performed_run`).
-/

namespace Enclave

variable {C : Type} {m : Type → Type}

/-- **A request to a certifier**, over a channel that is named by a `C`. -/
structure Request (C : Type) where
  /-- The channel of the certifier. -/
  channel : C
  /-- Its key derivation. -/
  keys : KeyRequest → SealKey
  /-- The nonce that it draws for this request, if it needs one. -/
  nonce : Block
  /-- The measurement that its keys are scoped to. -/
  measurement : Measurement
  /-- Its limit for plaintexts. -/
  maxPayload : Nat
  /-- What it is asked for. -/
  operation : Operation

/-- **An exchange for a whole quote or a whole report.** -/
def Exchange.IsEvidence (x : Exchange) : Prop :=
  (x.file = .quote ∧ x.limit = Quote.maxBytes) ∨ (x.file = .report ∧ x.limit = 432)

namespace Request

/-- The certifier that is asked, over a channel. -/
def certifier [Monad m] (r : Request C) (ch : Channel m) : Certifier m where
  channel := ch
  requester := ⟨fun request => pure (r.keys request)⟩
  freshNonce := pure r.nonce
  measurement := r.measurement
  maxPayload := r.maxPayload

/-- **A request, run.** -/
def run [Monad m] (r : Request C) (channels : C → Channel m) : ExceptT Error m Product :=
  r.operation.run (r.certifier (channels r.channel))

/-- **Requests, one after the other.** One that fails does not stop the others. -/
def runAll [Monad m] (requests : List (Request C)) (channels : C → Channel m) :
    m (List (Except Error Product)) :=
  requests.mapM fun r => (r.run channels).run

end Request

open Steps

/-! ## Requests are clients -/

theorem compositional_orderly {P : Exchange → Prop} :
    Compositional (m := Steps C) (Orderly P) where
  liftExcept := orderly_liftExcept
  bind := orderly_bind

/-- **Cut into steps, a request is a client** that asks for whole quotes and
reports. -/
theorem Request.orderly_run (r : Request C) :
    Orderly Exchange.IsEvidence (r.run Steps.channel) :=
  compositional_orderly.run
    (fun data => orderly_bindAndRead r.channel ⟨data, .quote, Quote.maxBytes⟩ (.inl ⟨rfl, rfl⟩))
    (fun data => orderly_bindAndRead r.channel ⟨data, .report, 432⟩ (.inr ⟨rfl, rfl⟩))
    (fun _ => orderly_lift _) (orderly_lift _) r.operation

/-- So are requests one after the other. -/
theorem Request.exists_client (requests : List (Request C)) :
    ∃ p : Client C (List (Except Error Product)), p.Asks Exchange.IsEvidence
      ∧ p.steps = runAll requests Steps.channel := by
  induction requests with
  | nil => exact ⟨.done [], .done _, rfl⟩
  | cons r requests ih =>
    obtain ⟨first, hfirst, hfirstSteps⟩ := r.orderly_run
    obtain ⟨rest, hrest, hrestSteps⟩ := ih
    refine ⟨first.bind fun answer => rest.bind fun answers => .done (answer :: answers),
      hfirst.bind fun answer => hrest.bind fun answers => .done _, ?_⟩
    unfold runAll
    rw [List.mapM_cons, Client.steps_bind, hfirstSteps]
    congr 1
    funext answer
    rw [Client.steps_bind, hrestSteps]
    rfl

/-! ## Requests in steps are requests -/

variable [Monad m] [LawfulMonad m] (channels : C → Channel m)

theorem performed_quote (c : C) (data : ReportData) :
    performed channels ((Steps.channel c).quote data) = (channels c).quote data :=
  performed_bindAndRead channels c data .quote Quote.maxBytes

theorem performed_deriveKey (c : C) (keys : KeyRequest → SealKey) (identity : Measurement) :
    performed channels
        (deriveKey (Steps.channel c) ⟨fun request => pure (keys request)⟩ identity)
      = deriveKey (channels c) ⟨fun request => pure (keys request)⟩ identity := by
  unfold deriveKey
  rw [performed_bind, performed_bindAndRead]
  congr 1
  funext raw
  split
  · rw [performed_bind, performed_liftExcept]
    congr 1
    funext report
    exact performed_lift channels _
  · exact performed_throw channels _

/-- **A request in steps is the request**, once its steps are taken over a
channel. -/
theorem Request.performed_run (r : Request C) :
    performed channels (r.run Steps.channel) = r.run channels := by
  have hkey : performed channels (r.certifier (Steps.channel r.channel)).key
      = (r.certifier (channels r.channel)).key :=
    performed_deriveKey channels r.channel r.keys r.measurement
  unfold run Operation.run
  cases r.operation with
  | attest claims =>
    show performed channels ((Steps.channel r.channel).quote _ >>= _) = (channels _).quote _ >>= _
    rw [performed_bind, performed_quote]
    rfl
  | verify userData received name verdict =>
    show performed channels ((Steps.channel r.channel).verify _ _ _ >>= _)
      = (channels _).verify _ _ _ >>= _
    unfold Channel.verify RemoteVerifier.ofVerdict
    simp only [performed_bind, performed_quote, performed_liftExcept, performed_pure]
  | sealAs layout plaintext =>
    show performed channels (Sealer.sealAs _ _ _ >>= _) = Sealer.sealAs _ _ _ >>= _
    unfold Sealer.sealAs
    cases layout with
    | legacy =>
      simp only [performed_bind, performed_liftExcept, hkey, performed_pure]
      rfl
    | nonced =>
      simp only [performed_bind, performed_liftExcept, hkey, performed_pure]
      have hnonce : performed channels
          (liftM (r.certifier (Steps.channel r.channel)).freshNonce
            : ExceptT Error (Steps C) Block)
          = liftM (r.certifier (channels r.channel)).freshNonce :=
        performed_lift channels r.nonce
      simp only [hnonce]
      rfl
  | unsealAs layout data =>
    show performed channels (Sealer.unsealAs _ _ _ >>= _) = Sealer.unsealAs _ _ _ >>= _
    unfold Sealer.unsealAs
    simp only [performed_bind, performed_liftExcept, hkey, performed_pure]
    congr 1
    congr 1
    funext blob
    congr 1
    funext _
    congr 1
    funext key
    cases blob.decrypt key <;> rfl
  | measurement =>
    show performed channels ((Steps.channel r.channel).measurement >>= _)
      = (channels _).measurement >>= _
    unfold Channel.measurement
    simp only [performed_bind, performed_quote, performed_liftExcept, performed_pure]
  | deriveKey identity =>
    show performed channels (Enclave.deriveKey _ _ _ >>= _) = Enclave.deriveKey _ _ _ >>= _
    rw [performed_bind]
    exact congrArg (· >>= _) (performed_deriveKey channels _ _ _)

/-- **Requests in steps are the requests**, one after the other. -/
theorem Request.perform_runAll (requests : List (Request C)) :
    (runAll requests Steps.channel).perform channels = runAll requests channels := by
  induction requests with
  | nil => rfl
  | cons r requests ih =>
    unfold runAll at ih ⊢
    rw [List.mapM_cons, List.mapM_cons, perform_bind, ← r.performed_run channels]
    show (r.run Steps.channel).run.perform channels >>= _ = _
    congr 1
    funext answer
    rw [perform_bind, ih]
    rfl

end Enclave
