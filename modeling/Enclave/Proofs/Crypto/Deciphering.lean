import Enclave.Crypto.Gcm

/-!
# Deciphering undoes enciphering

Counter mode adds the same keystream for enciphering and for deciphering, and
the keystream is long enough for any text, so that adding it twice gives the
text back (`Gcm.crypt_crypt`). Since the tag is checked before anything is
deciphered, authenticated decryption is more than a left inverse: what it
accepts is exactly what authenticated encryption of its answer produces
(`Gcm.decrypt_eq_some_iff`).
-/

namespace Enclave.Gcm

/-- **The keystream comes in whole blocks**, as many as it takes. -/
@[simp] theorem length_keystream (s : Schedule) (nonce : Block) (length : Nat) :
    (keystream s nonce length).length = 16 * ((length + 15) / 16) := by
  unfold keystream
  dsimp only
  rw [List.length_flatMap]
  simp [List.map_const', Nat.mul_comm]

/-- A text is as long enciphered as it is in the clear. -/
@[simp] theorem length_crypt (s : Schedule) (nonce : Block) (text : Bytes) :
    (crypt s nonce text).length = text.length := by
  unfold crypt
  rw [List.length_zipWith, length_keystream]
  omega

/-- Adding a byte string that is long enough twice adds nothing. -/
theorem zipWith_xor_zipWith_xor (text stream : Bytes) (h : text.length ≤ stream.length) :
    List.zipWith (· ^^^ ·) (List.zipWith (· ^^^ ·) text stream) stream = text := by
  induction text generalizing stream with
  | nil => rfl
  | cons x text ih =>
    cases stream with
    | nil => cases h
    | cons k stream =>
      rw [List.zipWith_cons_cons, List.zipWith_cons_cons, ih stream (Nat.le_of_succ_le_succ h),
        UInt8.xor_assoc, UInt8.xor_self, UInt8.xor_zero]

/-- **Adding the keystream twice** gives the text back. -/
@[simp] theorem crypt_crypt (s : Schedule) (nonce : Block) (text : Bytes) :
    crypt s nonce (crypt s nonce text) = text := by
  have hlen : text.length ≤ (keystream s nonce text.length).length := by
    rw [length_keystream]
    omega
  rw [crypt, length_crypt, crypt]
  exact zipWith_xor_zipWith_xor text _ hlen

/-- **Decryption accepts exactly what encryption of its answer produces.** -/
theorem decrypt_eq_some_iff {key nonce mac : Block} {ciphertext plaintext : Bytes} :
    decrypt key nonce mac ciphertext = some plaintext
      ↔ encrypt key nonce plaintext = (ciphertext, mac) := by
  unfold decrypt encrypt
  dsimp only
  constructor
  · intro h
    split at h
    case isFalse => cases h
    case isTrue ht =>
      rw [← Option.some.inj h, crypt_crypt, ht]
  · intro h
    obtain ⟨rfl, rfl⟩ := Prod.mk.inj h
    rw [if_pos rfl, crypt_crypt]

/-- Decryption refuses exactly a tag that is not the one of the ciphertext. -/
theorem decrypt_eq_none_iff {key nonce mac : Block} {ciphertext : Bytes} :
    decrypt key nonce mac ciphertext = none
      ↔ tag (.ofKey key) nonce ciphertext ≠ mac := by
  unfold decrypt
  dsimp only
  by_cases h : tag (.ofKey key) nonce ciphertext = mac
  · simp [h]
  · simp [h]

end Enclave.Gcm
