import Enclave.Proofs.Operation
import Enclave.Proofs.Sealing.Framing

/-!
# Every operation is one session

Whatever a certifier is asked for, it goes about it in the same way. It looks at
what it was given, and may refuse it; it opens one session, in which it binds
report data and reads one file; and it does the rest with the bytes that it
read, without the channel. `Operation.precheck` and `Operation.conclude` are the
two ends of this, and `Operation.run_eq` puts them around the session.

What the channel is told and asked is so decided before anything is read, and
what is made of the bytes needs no channel. A property of all operations comes
down to one of a session and one of its two ends.
-/

namespace Enclave

variable {m : Type → Type}

/-- **The request for a key** with the key id in the bytes of a report. -/
def KeyRequest.forBytes (raw : Bytes) : KeyRequest :=
  forReport ⟨⟨Bytes.window 384 0 raw⟩, Bytes.window 32 384 raw, Bytes.window 16 416 raw⟩

/-- **The key for the bytes that were read as a report.** -/
def KeyRequester.keyFor [Monad m] (keys : KeyRequester m) (raw : Bytes) :
    ExceptT Error m SealKey :=
  if raw.length = 432 then liftM (keys.getKey (.forBytes raw))
  else throw (.shortTransfer .read AttestationFile.report.name 432 raw.length)

/-- **Deriving a key is a session for a report**, and then the request. -/
theorem deriveKey_eq [Monad m] [LawfulMonad m] (ch : Channel m) (keys : KeyRequester m)
    (identity : Measurement) :
    deriveKey ch keys identity
      = ch.bindAndRead (.ofMeasurement identity) .report 432 >>= keys.keyFor := by
  unfold deriveKey
  congr 1
  funext raw
  unfold KeyRequester.keyFor
  by_cases h : raw.length = 432
  · rw [if_pos h, if_pos h, Report.parse_of_length h]
    exact pure_bind _ _
  · rw [if_neg h, if_neg h]

namespace Sealer

variable {layout : Layout} {data : Bytes}

/-- Sealed data that is framed as a blob is read as its parts. -/
theorem parseSealed_of_wellFramed (h : Blob.WellFramed layout data) :
    parseSealed layout data = .ok (Blob.parts layout data) := by
  unfold parseSealed
  rw [Blob.parse_of_wellFramed h]
  rfl

/-- Nothing else is read. -/
theorem parseSealed_of_not_wellFramed (h : ¬ Blob.WellFramed layout data) :
    ∃ fault, parseSealed layout data = .error (.malformedBlob fault) := by
  obtain ⟨fault, hparse⟩ := Blob.parse_of_not_wellFramed h
  refine ⟨fault, ?_⟩
  unfold parseSealed
  rw [hparse]
  rfl

end Sealer

namespace Operation

/-- **The report data that an operation binds.** The identity is that of the
certifier, to which its sealing keys are scoped. -/
def binding (identity : Measurement) : Operation → ReportData
  | attest claims => .ofClaims claims
  | verify userData _ _ _ => .ofClaims userData
  | sealAs _ _ => .ofMeasurement identity
  | unsealAs _ _ => .ofMeasurement identity
  | measurement => .zero
  | deriveKey identity => .ofMeasurement identity

/-- **Whether an operation needs a key**, and for that a report instead of a
quote. -/
def needsKey : Operation → Bool
  | attest _ => false
  | verify _ _ _ _ => false
  | sealAs _ _ => true
  | unsealAs _ _ => true
  | measurement => false
  | deriveKey _ => true

/-- The file that an operation reads. -/
def file (operation : Operation) : AttestationFile :=
  if operation.needsKey then .report else .quote

/-- How much of the file it reads at most. -/
def limit (operation : Operation) : Nat :=
  if operation.needsKey then 432 else 8192

/-- **What an operation finds out by itself**: a plaintext that is too large, or
sealed data that is no blob or too large a one. -/
def precheck (maxPayload : Nat) : Operation → Except Error Unit
  | sealAs _ plaintext => Sealer.checkCapacity maxPayload plaintext.length
  | unsealAs layout data => do
    let blob ← Sealer.parseSealed layout data
    Sealer.checkCapacity maxPayload blob.ciphertext.length
  | _ => .ok ()

/-- **What an operation makes of the bytes that it read.** -/
def conclude [Monad m] (c : Certifier m) (raw : Bytes) : Operation → ExceptT Error m Product
  | attest _ => return .bytes raw
  | verify userData received _ verdict => do
    let quote ← liftExcept (Quote.matching (.ofClaims userData) received raw)
    liftExcept (verdict quote.bytes)
    return .measurement quote.measurement
  | sealAs .legacy plaintext => do
    let key ← c.requester.keyFor raw
    return .bytes (Blob.encrypt key none plaintext).toBytes
  | sealAs .nonced plaintext => do
    let key ← c.requester.keyFor raw
    let nonce ← c.freshNonce
    return .bytes (Blob.encrypt key (some nonce) plaintext).toBytes
  | unsealAs layout data => do
    let key ← c.requester.keyFor raw
    match (Blob.parts layout data).decrypt key with
    | some plaintext => return .bytes plaintext
    | none => throw .authenticationFailure
  | measurement => do
    let quote ← liftExcept (Quote.parse raw)
    return .measurement quote.measurement
  | deriveKey _ => do return .key (← c.requester.keyFor raw)

/-- **The session of an operation.** -/
def session [Monad m] (c : Certifier m) (operation : Operation) : ExceptT Error m Bytes :=
  c.channel.bindAndRead (operation.binding c.measurement) operation.file operation.limit

/-- **Every operation is one session** between a look at what was given and a
conclusion from what was read. -/
theorem run_eq [Monad m] [LawfulMonad m] (c : Certifier m) (operation : Operation) :
    operation.run c = (do
      liftExcept (operation.precheck c.maxPayload)
      let raw ← operation.session c
      operation.conclude c raw) := by
  have hok : liftExcept (.ok () : Except Error Unit) = (pure () : ExceptT Error m Unit) := rfl
  have hthrow (e : Error) : liftExcept (.error e : Except Error Blob)
      = (throw e : ExceptT Error m Blob) := rfl
  cases operation with
  | attest claims =>
    show c.channel.bindAndRead _ _ _ >>= _ = _
    simp only [precheck, hok, pure_bind]
    rfl
  | verify userData received name verdict =>
    show c.channel.verify userData received _ >>= _ = _
    unfold Channel.verify
    simp only [precheck, hok, pure_bind, bind_assoc]
    rfl
  | sealAs layout plaintext =>
    show Sealer.sealAs c layout plaintext >>= _ = _
    unfold Sealer.sealAs Sealer.key
    simp only [precheck, deriveKey_eq, bind_assoc]
    cases layout with
    | legacy =>
      simp only [pure_bind]
      rfl
    | nonced =>
      simp only [bind_assoc, pure_bind]
      rfl
  | unsealAs layout data =>
    show Sealer.unsealAs c layout data >>= _ = _
    unfold Sealer.unsealAs Sealer.key
    by_cases hframed : Blob.WellFramed layout data
    case neg =>
      obtain ⟨fault, hsealed⟩ := Sealer.parseSealed_of_not_wellFramed hframed
      rw [hsealed, hthrow, ExceptT.bind_throw, ExceptT.bind_throw, precheck, hsealed]
      exact (ExceptT.bind_throw _).symm
    -- what is framed as a blob is read as its parts, which the conclusion decrypts
    have hsealed := Sealer.parseSealed_of_wellFramed hframed
    have hpure (blob : Blob) : liftExcept (.ok blob : Except Error Blob)
        = (pure blob : ExceptT Error m Blob) := rfl
    simp only [precheck, hsealed, hpure, pure_bind, deriveKey_eq, bind_assoc]
    show _ = liftExcept (Sealer.checkCapacity c.maxPayload
      (Blob.parts layout data).ciphertext.length) >>= fun _ =>
        c.channel.bindAndRead _ _ _ >>= fun raw => c.requester.keyFor raw >>= _
    refine bind_congr fun _ => bind_congr fun raw => bind_congr fun key => ?_
    cases (Blob.parts layout data).decrypt key with
    | some plaintext => exact pure_bind _ _
    | none => exact ExceptT.bind_throw _
  | measurement =>
    show c.channel.measurement >>= _ = _
    unfold Channel.measurement
    simp only [precheck, hok, pure_bind, bind_assoc]
    rfl
  | deriveKey identity =>
    show Enclave.deriveKey c.channel c.requester identity >>= _ = _
    simp only [precheck, hok, pure_bind, deriveKey_eq, bind_assoc]
    rfl

/-! ## What comes of it -/

variable {σ : Type} (c : Certifier (StateM σ)) (operation : Operation) (w : σ)

/-- **What an operation answers**: the first of its three parts that fails says
why, and else it is what was concluded. -/
theorem answerOf_run :
    answerOf (operation.run c) w
      = match operation.precheck c.maxPayload with
        | .error e => .error e
        | .ok () =>
          match answerOf (operation.session c) w with
          | .error e => .error e
          | .ok raw =>
            answerOf (operation.conclude c raw) (worldAfter (operation.session c) w) := by
  rw [run_eq, answerOf_bind, answerOf_liftExcept, worldAfter_liftExcept]
  rcases operation.precheck c.maxPayload with e | ⟨⟩
  · rfl
  · dsimp only
    rw [answerOf_bind]
    cases answerOf (operation.session c) w <;> rfl

/-- **What an operation leaves behind**: the world as it was, if it refuses what
it was given, and else what its session and its conclusion leave. -/
theorem worldAfter_run :
    worldAfter (operation.run c) w
      = match operation.precheck c.maxPayload with
        | .error _ => w
        | .ok () =>
          match answerOf (operation.session c) w with
          | .error _ => worldAfter (operation.session c) w
          | .ok raw =>
            worldAfter (operation.conclude c raw) (worldAfter (operation.session c) w) := by
  rw [run_eq, worldAfter_bind, answerOf_liftExcept, worldAfter_liftExcept]
  rcases operation.precheck c.maxPayload with e | ⟨⟩
  · rfl
  · dsimp only
    rw [worldAfter_bind]
    cases answerOf (operation.session c) w <;> rfl

end Operation

end Enclave
