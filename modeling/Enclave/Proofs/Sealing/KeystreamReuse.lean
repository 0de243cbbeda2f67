import Enclave.Proofs.History
import Enclave.Proofs.Sealing.RoundTrip

/-!
# Without a nonce the keystream repeats

Counter mode adds to every byte of a text the byte of the keystream that has the
same position. This byte is found in one block of the cipher, and which one depends
on the position alone (`Gcm.keystreamByte`): not on the text, nor on how long it is
or where its last block ends (`Gcm.getElem_crypt`).

A layout without nonces has one keystream for each key. So all that is sealed in it
under a key can be compared: two ciphertexts differ wherever the plaintexts do, and
by as much (`Gcm.crypt_xor_crypt`), and one continues the other exactly if the
plaintexts do (`Gcm.crypt_prefix_crypt_iff`). `Sealer.legacy_reuses_keystream` says
so of what is sealed, whoever derives the key and whatever was done with it before.
-/

namespace Enclave

/-! ## The keystream, byte by byte -/

namespace Gcm

/-- **The byte of the keystream at a position**, within the block that it falls in. -/
def keystreamByte (s : Schedule) (nonce : Block) (i : Nat) : UInt8 :=
  (s.cipher (advance (initialCounter s nonce) (i / 16 + 1))).get
    ⟨i % 16, Nat.mod_lt i (by decide)⟩

/-- A byte of some blocks in a row. -/
theorem getElem?_flatMap_range (block : Nat → Block) {n i : Nat} (hi : i < 16 * n) :
    ((List.range n).flatMap fun k => (block k).toList)[i]?
      = some ((block (i / 16)).get ⟨i % 16, Nat.mod_lt i (by decide)⟩) := by
  induction n with
  | zero => cases hi
  | succ n ih =>
    have hlength : ((List.range n).flatMap fun k => (block k).toList).length = 16 * n := by
      rw [List.length_flatMap]
      simp [List.map_const', Nat.mul_comm]
    rw [List.range_succ, List.flatMap_append]
    by_cases hbefore : i < 16 * n
    · rw [List.getElem?_append_left (by rwa [hlength])]
      exact ih hbefore
    · obtain ⟨j, rfl⟩ := Nat.exists_eq_add_of_le (Nat.le_of_not_lt hbefore)
      have hj : j < 16 := by omega
      have hblock : (16 * n + j) / 16 = n := by omega
      have hbyte : (16 * n + j) % 16 = j := by omega
      rw [List.getElem?_append_right (by omega), hlength, Nat.add_sub_cancel_left,
        List.flatMap_singleton]
      simp only [hblock, hbyte]
      rw [List.getElem?_eq_getElem (by rwa [Vector.length_toList]), Vector.getElem_toList]
      rfl

/-- **The keystream does not depend on the length it is wanted in.** -/
theorem getElem?_keystream (s : Schedule) (nonce : Block) {length i : Nat} (hi : i < length) :
    (keystream s nonce length)[i]? = some (keystreamByte s nonce i) :=
  getElem?_flatMap_range (fun k => s.cipher (advance (initialCounter s nonce) (k + 1)))
    (by omega)

variable (s : Schedule) (nonce : Block) {p q : Bytes} {i : Nat}

/-- **A byte is enciphered on its own**, by its value and its position. -/
theorem getElem?_crypt (hi : i < p.length) :
    (crypt s nonce p)[i]? = some (p[i] ^^^ keystreamByte s nonce i) := by
  unfold crypt
  rw [List.getElem?_zipWith, List.getElem?_eq_getElem hi, getElem?_keystream s nonce hi]

/-- **Two ciphertexts differ by what the plaintexts differ by.** -/
theorem crypt_xor_crypt (hp : i < p.length) (hq : i < q.length) :
    ∃ x y, (crypt s nonce p)[i]? = some x ∧ (crypt s nonce q)[i]? = some y
      ∧ x ^^^ y = p[i] ^^^ q[i] := by
  refine ⟨_, _, getElem?_crypt s nonce hp, getElem?_crypt s nonce hq, ?_⟩
  rw [UInt8.xor_comm q[i], UInt8.xor_assoc, ← UInt8.xor_assoc (keystreamByte s nonce i),
    UInt8.xor_self, UInt8.zero_xor]

/-- The ciphertext of a longer plaintext goes on where that of a shorter one ends. -/
theorem crypt_prefix_crypt (h : p <+: q) : crypt s nonce p <+: crypt s nonce q := by
  rw [List.prefix_iff_getElem?] at h ⊢
  intro i hi
  have hp : i < p.length := by rwa [length_crypt] at hi
  obtain ⟨hq, hbyte⟩ := List.getElem?_eq_some_iff.mp (h i hp)
  rw [getElem?_crypt s nonce hq, hbyte, ← getElem?_crypt s nonce hp, List.getElem?_eq_getElem hi]

/-- **One ciphertext continues another one** exactly if the plaintexts do. -/
theorem crypt_prefix_crypt_iff : crypt s nonce p <+: crypt s nonce q ↔ p <+: q := by
  refine ⟨fun h => ?_, crypt_prefix_crypt s nonce⟩
  have hback := crypt_prefix_crypt s nonce h
  rwa [crypt_crypt, crypt_crypt] at hback

end Gcm

/-! ## What is sealed without a nonce -/

namespace Sealer

variable {σ τ : Type}

/-- **Sealing without a nonce**: a header of 20 bytes, and the plaintext with the
keystream that the key has for itself. -/
theorem answerOf_sealAs_legacy {s : Sealer (StateM σ)} {w : σ} {key : SealKey}
    (hkey : answerOf s.key w = .ok key) {plaintext : Bytes}
    (h : plaintext.length ≤ s.maxPayload) (h₃₂ : plaintext.length < 2 ^ 32) :
    ∃ header : Bytes, header.length = 20
      ∧ answerOf (s.sealAs .legacy plaintext) w
        = .ok (header ++ Gcm.crypt (.ofKey key.bytes) key.bytes plaintext) := by
  refine ⟨_, Blob.length_header (Blob.encrypt key none plaintext), ?_⟩
  rw [answerOf_sealAs_of_le hkey .legacy h (Nat.le_of_lt_succ h₃₂), Blob.toBytes_eq]
  rfl

/-- **Legacy sealing reuses its keystream.** Two plaintexts within the limits are
sealed by sealers that derive the same key, which may be one and the same after
whatever calls. Then wherever both have a byte, the sealed bytes 20 places further
on differ by what the plaintexts differ by; and the one ciphertext is the beginning
of the other exactly if the one plaintext is the beginning of the other. -/
theorem legacy_reuses_keystream (s : Sealer (StateM σ)) (t : Sealer (StateM τ)) (w : σ) (v : τ)
    (key : SealKey) (hs : answerOf s.key w = .ok key) (ht : answerOf t.key v = .ok key)
    (p q : Bytes) (hp : p.length ≤ s.maxPayload) (hp₃₂ : p.length < 2 ^ 32)
    (hq : q.length ≤ t.maxPayload) (hq₃₂ : q.length < 2 ^ 32) :
    ∃ a b : Bytes, answerOf (s.sealAs .legacy p) w = .ok a
      ∧ answerOf (t.sealAs .legacy q) v = .ok b
      ∧ a.length = 20 + p.length ∧ b.length = 20 + q.length
      ∧ (∀ (i : Nat) (hip : i < p.length) (hiq : i < q.length),
        ∃ x y, a[20 + i]? = some x ∧ b[20 + i]? = some y ∧ x ^^^ y = p[i] ^^^ q[i])
      ∧ (a.drop 20 <+: b.drop 20 ↔ p <+: q) := by
  obtain ⟨headerA, hlengthA, hsealA⟩ := answerOf_sealAs_legacy hs hp hp₃₂
  obtain ⟨headerB, hlengthB, hsealB⟩ := answerOf_sealAs_legacy ht hq hq₃₂
  refine ⟨_, _, hsealA, hsealB, ?_, ?_, fun i hip hiq => ?_, ?_⟩
  · rw [List.length_append, hlengthA, Gcm.length_crypt]
  · rw [List.length_append, hlengthB, Gcm.length_crypt]
  · rw [List.getElem?_append_right (by omega), List.getElem?_append_right (by omega), hlengthA,
      hlengthB, Nat.add_sub_cancel_left]
    exact Gcm.crypt_xor_crypt _ _ hip hiq
  · rw [List.drop_left' hlengthA, List.drop_left' hlengthB]
    exact Gcm.crypt_prefix_crypt_iff _ _

/-- A party of an emulated enclave seals two bytes, and after some more calls three
bytes that begin with them. -/
theorem legacy_reuses_keystream_later :
    let p : MockParty := ⟨⟨.zero, 3⟩, 0, .zero, .zero, 16⟩
    let history : List (MockParty × MockParty.Use) :=
      [(p, .operation (.sealAs .legacy [1, 2])), (p, .write .userReportData [7]),
        (p, .operation (.attest [5]))]
    let w : Machine := { enclaves := [.zero] }
    ∃ a b : Bytes, answerOf (p.certifier.sealAs .legacy [1, 2]) w = .ok a
      ∧ answerOf (p.certifier.sealAs .legacy [1, 2, 3]) (MockParty.used history w) = .ok b
      ∧ a.drop 20 <+: b.drop 20 := by
  intro p history w
  have hlater : p.number < (MockParty.used history w).enclaves.length :=
    MockParty.lt_length_enclaves_used Nat.one_pos history
  obtain ⟨a, b, ha, hb, -, -, -, hprefix⟩ := legacy_reuses_keystream p.certifier p.certifier w
    (MockParty.used history w) _ (MockParty.answerOf_deriveKey Nat.one_pos .zero)
    (MockParty.answerOf_deriveKey hlater .zero) [1, 2] [1, 2, 3] (by decide) (by decide)
    (by decide) (by decide)
  exact ⟨a, b, ha, hb, hprefix.mpr ⟨[3], rfl⟩⟩

end Sealer

end Enclave
