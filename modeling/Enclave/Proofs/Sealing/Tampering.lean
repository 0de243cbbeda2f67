import Enclave.Proofs.Crypto.Tag
import Enclave.Proofs.Sealing.RoundTrip

/-!
# Every single bit of a blob is protected

A blob that is unsealed stops being so when one of its bits is flipped
(`Sealer.unsealAs_flip`). What happens depends on the field the bit is in. In
the length field, the length no longer is that of the blob. In the tag, the
tag no longer is the one of the ciphertext; in the ciphertext or the nonce,
the one that it should be is another.

The hash key is asked to be nonzero, since the tag of a key with a zero hash
key does not depend on the ciphertext at all.
-/

namespace Enclave

/-! ## The fields with a bit flipped -/

namespace Blob

/-- A bit behind the length field leaves the length alone. -/
theorem declared_flip {b : Bytes} {i : Nat} (hi : 4 ≤ i) (mask : UInt8) :
    declared (b.flip i mask) = declared b := by
  have htake : (b.take 4).length ≤ i := (List.length_take_le 4 b).trans hi
  unfold declared Bytes.flip
  rw [List.take_modify, List.modify_eq_self htake]

/-- **A bit of the length field** changes the length. -/
theorem declared_flip_ne {b : Bytes} {i : Nat} (hi : i < 4) (hb : i < b.length) {mask : UInt8}
    (hmask : mask ≠ 0) : declared (b.flip i mask) ≠ declared b := by
  have htake : (b.flip i mask).take 4 = Bytes.flip (b.take 4) i mask := List.take_modify _ _ _ _
  unfold declared
  rw [htake, Ne, Bytes.ofLittleEndian_inj (Bytes.length_flip _ _ _)]
  exact Bytes.flip_ne (by rw [List.length_take]; omega) hmask

/-- A byte string that is framed as a blob stays so, unless the bit is in the
length field. -/
theorem wellFramed_flip {l : Layout} {b : Bytes} (h : WellFramed l b) {i : Nat} (hi : 4 ≤ i)
    (mask : UInt8) : WellFramed l (b.flip i mask) := by
  unfold WellFramed at h ⊢
  rw [Bytes.length_flip, declared_flip hi, h]

/-- **With a bit of the length field flipped**, a blob is framed no more. -/
theorem not_wellFramed_flip {l : Layout} {b : Bytes} (h : WellFramed l b) {i : Nat} (hi : i < 4)
    (hb : i < b.length) {mask : UInt8} (hmask : mask ≠ 0) : ¬ WellFramed l (b.flip i mask) := by
  intro h'
  unfold WellFramed at h h'
  rw [Bytes.length_flip] at h'
  exact declared_flip_ne hi hb hmask (Nat.add_left_cancel (h'.symm.trans h))

/-- A bit behind the header is a bit of the ciphertext. -/
theorem parts_flip_ciphertext {l : Layout} {i : Nat} (hi : l.headerSize ≤ i) (b : Bytes)
    (mask : UInt8) :
    parts l (b.flip i mask)
      = { parts l b with
          ciphertext := (parts l b).ciphertext.flip (i - l.headerSize) mask } := by
  have hl := le_headerSize l
  have hnonce : l = .nonced → 4 + 16 ≤ i := by
    rintro rfl
    exact Nat.le_trans (by decide) hi
  have hciphertext : (b.flip i mask).drop l.headerSize
      = Bytes.flip (b.drop l.headerSize) (i - l.headerSize) mask := List.drop_modify_of_ge _ _ _ _ hi
  unfold parts
  rw [Bytes.window_flip_of_not_mem b mask (.inr (by omega : l.headerSize - 16 + 16 ≤ i)),
    hciphertext]
  split
  case isFalse => rfl
  case isTrue h => rw [Bytes.window_flip_of_not_mem b mask (.inr (hnonce h))]

/-- A bit of the last 16 bytes of the header is a bit of the tag. -/
theorem parts_flip_tag {l : Layout} {b : Bytes} {position : Nat} (hp : position < 16)
    (hb : l.headerSize - 16 + position < b.length) (value : Nat) :
    parts l (b.flip (l.headerSize - 16 + position) (UInt8.ofNat (2 ^ value)))
      = { parts l b with tag := (parts l b).tag.add (Block.bit position value) } := by
  have hl := le_headerSize l
  have hnonce : l = .nonced → 4 + 16 ≤ l.headerSize - 16 + position := by
    rintro rfl
    exact Nat.le_add_right _ _
  have hciphertext : (b.flip (l.headerSize - 16 + position) (UInt8.ofNat (2 ^ value))).drop
      l.headerSize = b.drop l.headerSize := List.drop_modify_of_lt _ _ _ _ (by omega)
  unfold parts
  rw [Bytes.window_flip hp hb, hciphertext]
  split
  case isFalse => rfl
  case isTrue h => rw [Bytes.window_flip_of_not_mem b _ (.inr (hnonce h))]

/-- A bit of the 16 bytes behind the length field is a bit of the nonce, in
the layout that has one. -/
theorem parts_flip_nonce {b : Bytes} {position : Nat} (hp : position < 16)
    (hb : 4 + position < b.length) (value : Nat) :
    parts .nonced (b.flip (4 + position) (UInt8.ofNat (2 ^ value)))
      = { parts .nonced b with
          nonce := some (Block.add (Bytes.window 16 4 b) (Block.bit position value)) } := by
  have hciphertext : (b.flip (4 + position) (UInt8.ofNat (2 ^ value))).drop 36 = b.drop 36 :=
    List.drop_modify_of_lt _ _ _ _ (by omega)
  show Blob.mk (some _) (Bytes.window 16 20 _) (List.drop 36 _) = _
  rw [Bytes.window_flip hp hb, Bytes.window_flip_of_not_mem b _ (.inl (by omega)), hciphertext]
  rfl

/-! ## Blobs that are not decrypted -/

/-- The tag of a blob that is decrypted is the one of its ciphertext. -/
theorem tag_of_decrypt {key : SealKey} {b : Blob} {plaintext : Bytes}
    (h : b.decrypt key = some plaintext) :
    Gcm.tag (.ofKey key.bytes) (effectiveNonce key b.nonce) b.ciphertext = b.tag := by
  by_contra hne
  have hnone := Gcm.decrypt_eq_none_iff.mpr hne
  unfold decrypt at h
  rw [hnone] at h
  cases h

/-- **A hash key that notices flipped bits.** -/
theorem hashKey_ne_zero {key : Block}
    (h : Aes.encrypt (Aes.roundKeys key) Block.zero ≠ Block.zero) :
    (Gcm.Schedule.ofKey key).hashKey ≠ 0 := by
  intro hzero
  rw [← FieldElement.ofBlock_zero] at hzero
  exact h (FieldElement.ofBlock_injective hzero)

/-- **A blob with a bit flipped behind its length field** is not decrypted. -/
theorem decrypt_parts_flip {key : SealKey}
    (hkey : Aes.encrypt (Aes.roundKeys key.bytes) Block.zero ≠ Block.zero) {l : Layout}
    {b plaintext : Bytes} (h : (parts l b).decrypt key = some plaintext) {i value : Nat}
    (hi : 4 ≤ i) (hb : i < b.length) (hv : value < 8) :
    (parts l (b.flip i (UInt8.ofNat (2 ^ value)))).decrypt key = none := by
  have hl := le_headerSize l
  have hhash := hashKey_ne_zero hkey
  have htag := tag_of_decrypt h
  refine Gcm.decrypt_eq_none_iff.mpr ?_
  by_cases hc : l.headerSize ≤ i
  · -- in the ciphertext
    have hlt : i - l.headerSize < (parts l b).ciphertext.length := by
      show _ < (b.drop l.headerSize).length
      rw [List.length_drop]
      omega
    rw [parts_flip_ciphertext hc]
    dsimp only
    rw [← htag]
    exact Gcm.tag_flip_ne hhash _ hlt hv
  by_cases ht : l.headerSize - 16 ≤ i
  · -- in the tag
    obtain ⟨position, rfl⟩ := Nat.exists_eq_add_of_le ht
    have hp : position < 16 := by omega
    rw [parts_flip_tag hp hb]
    dsimp only
    rw [htag]
    exact (Block.add_bit_ne _ hp hv).symm
  -- what is left is the nonce
  obtain ⟨position, rfl⟩ := Nat.exists_eq_add_of_le hi
  cases l with
  | legacy => exact absurd hi ht
  | nonced =>
    have hp : position < 16 := by
      change ¬ 20 ≤ 4 + position at ht
      omega
    rw [parts_flip_nonce hp hb]
    dsimp only
    rw [← htag]
    exact Gcm.tag_nonce_ne hhash _ _ hp hv

end Blob

/-! ## Tampering with sealed data -/

namespace Sealer

variable {σ : Type}

/-- **No bit of an unsealed blob can be flipped unnoticed.** Where the hash key
is not zero, the same call on the blob with a bit flipped fails its
authentication if the bit is in the nonce, the tag or the ciphertext, and does
not even recognize a blob if the bit is in the length field. -/
theorem unsealAs_flip (s : Sealer (StateM σ)) (layout : Layout) (data plaintext : Bytes) (w w' : σ)
    (key : SealKey) (hkey : answerOf s.key w = .ok key)
    (hsubkey : Aes.encrypt (Aes.roundKeys key.bytes) Block.zero ≠ Block.zero)
    (h : answerOf (s.unsealAs layout data) w = .ok plaintext) (i bit : Nat) (hi : i < data.length)
    (hbit : bit < 8) :
    (4 ≤ i → answerOf s.key w' = .ok key →
        answerOf (s.unsealAs layout (data.flip i (UInt8.ofNat (2 ^ bit)))) w'
          = .error .authenticationFailure)
      ∧ (i < 4 → ∃ fault : BlobFault,
        answerOf (s.unsealAs layout (data.flip i (UInt8.ofNat (2 ^ bit)))) w'
          = .error (.malformedBlob fault)) := by
  obtain ⟨hframed, hle, hdecrypt⟩ := (answerOf_unsealAs_eq_ok_iff_parts hkey).mp h
  refine ⟨fun h₄ hkey' => ?_, fun h₄ => ?_⟩
  · -- the framing is intact, so that the tag decides
    rw [← Blob.declared_flip h₄ (UInt8.ofNat (2 ^ bit))] at hle
    rw [answerOf_unsealAs_of_wellFramed hkey' (Blob.wellFramed_flip hframed h₄ _) hle,
      Blob.decrypt_parts_flip hsubkey hdecrypt h₄ hi hbit]
  · -- the size is the same and the length is not, whatever becomes of the key
    have hmask : ∀ k : Fin 8, UInt8.ofNat (2 ^ k.val) ≠ 0 := by decide
    obtain ⟨fault, hparse⟩ := Blob.parse_of_not_wellFramed
      (Blob.not_wellFramed_flip hframed h₄ hi (hmask ⟨bit, hbit⟩))
    refine ⟨fault, ?_⟩
    rw [answerOf_unsealAs, hparse]

/-- Under the key of zeros, three sealed bytes with the first bit of the nonce,
and then with the first bit of the length flipped. -/
theorem unsealAs_flip_keyed :
    let data := (Blob.encrypt ⟨.zero⟩ (some .zero) [1, 2, 3]).toBytes
    answerOf ((keyed ⟨.zero⟩ .zero 3).unsealAs .nonced (data.flip 4 (UInt8.ofNat (2 ^ 0))))
        oneReport = .error .authenticationFailure
      ∧ ∃ fault : BlobFault,
        answerOf ((keyed ⟨.zero⟩ .zero 3).unsealAs .nonced (data.flip 0 (UInt8.ofNat (2 ^ 0))))
          oneReport = .error (.malformedBlob fault) := by
  intro data
  have hsubkey : Aes.encrypt (Aes.roundKeys Block.zero) Block.zero ≠ Block.zero := by
    rw [Aes.encrypt_zero]
    decide
  have hlen : data.length = 39 := by
    show (Blob.toBytes _).length = 39
    rw [Blob.length_toBytes, Blob.length_ciphertext_encrypt]
    rfl
  have hkey := answerOf_key_keyed ⟨.zero⟩ .zero 3
  have hunseal := answerOf_unsealAs_keyed ⟨.zero⟩ .zero
  exact ⟨(unsealAs_flip (keyed ⟨.zero⟩ .zero 3) .nonced data [1, 2, 3] oneReport oneReport ⟨.zero⟩
      hkey hsubkey hunseal 4 0 (by omega) (by decide)).1 (Nat.le_refl 4) hkey,
    (unsealAs_flip (keyed ⟨.zero⟩ .zero 3) .nonced data [1, 2, 3] oneReport oneReport ⟨.zero⟩
      hkey hsubkey hunseal 0 0 (by omega) (by decide)).2 (by decide)⟩

end Sealer

end Enclave
