import Enclave.Proofs.Crypto.Deciphering
import Enclave.Proofs.Outcome
import Enclave.Proofs.Sealing.Framing
import Enclave.Sealing.Sealer

/-!
# Sealing and unsealing under a key

Both operations ask for the key only after everything that needs no key was
checked, and what they do with the key is pure. Here each is written as that
sequence of decisions, in the order in which they are taken
(`Sealer.answerOf_sealAs`, `Sealer.answerOf_unsealAs`): the channel and the
requester enter through the answer to the key derivation alone.

The pure part is an encryption of blobs, and `Blob.decrypt_eq_some_iff` says
that its inverse accepts nothing but its results.
-/

namespace Enclave

/-! ## Blobs under a key -/

namespace Blob

/-- An encrypted blob has the nonce it was given. -/
@[simp] theorem nonce_encrypt (key : SealKey) (nonce : Option Block) (plaintext : Bytes) :
    (encrypt key nonce plaintext).nonce = nonce := rfl

/-- Its ciphertext is as long as the plaintext. -/
@[simp] theorem length_ciphertext_encrypt (key : SealKey) (nonce : Option Block)
    (plaintext : Bytes) : (encrypt key nonce plaintext).ciphertext.length = plaintext.length :=
  Gcm.length_crypt _ _ _

/-- **A blob is decrypted exactly if it is the encryption of its plaintext**
under its own nonce. -/
theorem decrypt_eq_some_iff {key : SealKey} {b : Blob} {plaintext : Bytes} :
    b.decrypt key = some plaintext ↔ encrypt key b.nonce plaintext = b := by
  unfold decrypt
  rw [Gcm.decrypt_eq_some_iff]
  obtain ⟨nonce, tag, ciphertext⟩ := b
  unfold encrypt
  constructor
  · intro h
    dsimp only at h ⊢
    rw [h]
  · intro h
    dsimp only at h ⊢
    injection h with _ htag hciphertext
    exact Prod.ext hciphertext htag

end Blob

/-! ## The operations -/

namespace Sealer

variable {σ : Type}

/-- A size within both limits is accepted. -/
theorem checkCapacity_of_le {limit size : Nat} (h : size ≤ limit) (h' : size ≤ Blob.maxLength) :
    checkCapacity limit size = .ok () := by
  unfold checkCapacity
  rw [if_neg (Nat.not_lt.mpr h), if_neg (Nat.not_lt.mpr h')]

/-- A size over the limit is refused with the limit. -/
theorem checkCapacity_of_lt {limit size : Nat} (h : limit < size) :
    checkCapacity limit size = .error (.payloadTooLarge size limit) := by
  unfold checkCapacity
  rw [if_pos h]

/-- A size that the limit allows and the length field cannot state is refused
with the largest length. -/
theorem checkCapacity_of_maxLength_lt {limit size : Nat} (h : size ≤ limit)
    (h' : Blob.maxLength < size) :
    checkCapacity limit size = .error (.payloadTooLarge size Blob.maxLength) := by
  unfold checkCapacity
  rw [if_neg (Nat.not_lt.mpr h), if_pos h']

/-- **The nonce that sealing puts into a blob**, if the layout has one: it is
drawn once the key is there. -/
def drawn (s : Sealer (StateM σ)) (layout : Layout) (w : σ) : Option Block :=
  match layout with
  | .legacy => none
  | .nonced => some (s.freshNonce (worldAfter s.key w)).1

@[simp] theorem layout_encrypt_drawn (s : Sealer (StateM σ)) (layout : Layout) (w : σ)
    (key : SealKey) (plaintext : Bytes) :
    (Blob.encrypt key (s.drawn layout w) plaintext).layout = layout := by
  cases layout <;> rfl

/-- **What sealing answers**: the first limit that is exceeded, the error of
the key derivation, and else the bytes of the encrypted blob. -/
theorem answerOf_sealAs (s : Sealer (StateM σ)) (layout : Layout) (plaintext : Bytes) (w : σ) :
    answerOf (s.sealAs layout plaintext) w
      = match checkCapacity s.maxPayload plaintext.length with
        | .error e => .error e
        | .ok () =>
          match answerOf s.key w with
          | .error e => .error e
          | .ok key => .ok (Blob.encrypt key (s.drawn layout w) plaintext).toBytes := by
  unfold sealAs
  rw [answerOf_bind, answerOf_liftExcept, worldAfter_liftExcept]
  rcases checkCapacity s.maxPayload plaintext.length with e | ⟨⟩
  · rfl
  · dsimp only
    rw [answerOf_bind]
    cases answerOf s.key w with
    | error e => rfl
    | ok key => cases layout <;> rfl

/-- **What unsealing answers**: the fault in the framing, the limit that is
exceeded, the error of the key derivation, and else the plaintext, if the tag
fits. -/
theorem answerOf_unsealAs (s : Sealer (StateM σ)) (layout : Layout) (data : Bytes) (w : σ) :
    answerOf (s.unsealAs layout data) w
      = match Blob.parse layout data with
        | .error fault => .error (.malformedBlob fault)
        | .ok blob =>
          match checkCapacity s.maxPayload blob.ciphertext.length with
          | .error e => .error e
          | .ok () =>
            match answerOf s.key w with
            | .error e => .error e
            | .ok key =>
              match blob.decrypt key with
              | some plaintext => .ok plaintext
              | none => .error .authenticationFailure := by
  unfold unsealAs parseSealed
  rw [answerOf_bind, answerOf_liftExcept, worldAfter_liftExcept]
  cases Blob.parse layout data with
  | error fault => rfl
  | ok blob =>
    show answerOf (_ >>= _) w = _
    rw [answerOf_bind, answerOf_liftExcept, worldAfter_liftExcept]
    dsimp only
    rcases checkCapacity s.maxPayload blob.ciphertext.length with e | ⟨⟩
    · rfl
    · dsimp only
      rw [answerOf_bind]
      cases answerOf s.key w with
      | error e => rfl
      | ok key =>
        dsimp only
        cases blob.decrypt key <;> rfl

end Sealer

end Enclave
