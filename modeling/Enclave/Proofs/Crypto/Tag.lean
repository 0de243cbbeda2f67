import Enclave.Proofs.Crypto.Permutation
import Enclave.Proofs.Crypto.PolynomialHash
import Enclave.Proofs.Fields

/-!
# The tag depends on every bit

A single bit of the ciphertext is a single bit of one of its blocks, which the
polynomial hash notices (`Gcm.tag_flip_ne`). A single bit of the nonce is
noticed by the same hash when it makes the initial counter of the nonce, and
the cipher tells counters apart, so that the mask on the tag changes
(`Gcm.tag_nonce_ne`). Either way the tag is another one, as long as the hash
key is not zero.
-/

namespace Enclave

/-- **A single bit of a byte string** is a single bit of the window it is in. -/
theorem Bytes.window_flip {b : Bytes} {start position value : Nat} (hp : position < 16)
    (hb : start + position < b.length) :
    window 16 start (b.flip (start + position) (UInt8.ofNat (2 ^ value)))
      = Block.add (window 16 start b) (Block.bit position value) := by
  refine Vector.ext (fun j hj => ?_)
  unfold Block.add Block.bit
  rw [Vector.getElem_zipWith, Vector.getElem_ofFn, getElem_window, getElem_window,
    List.getD_eq_getElem?_getD, List.getD_eq_getElem?_getD]
  unfold flip
  by_cases h : j = position
  · subst h
    rw [List.getElem?_modify_eq, List.getElem?_eq_getElem hb, if_pos rfl]
    rfl
  · rw [List.getElem?_modify_ne _ _ (by omega), if_neg h, UInt8.xor_zero]

/-- A single bit added to a block makes another block. -/
theorem Block.add_bit_ne (b : Block) {position value : Nat} (hp : position < 16) (hv : value < 8) :
    b.add (bit position value) ≠ b := by
  intro h
  have hsum := congrArg FieldElement.toResidue (congrArg FieldElement.ofBlock h)
  rw [FieldElement.ofBlock_add, FieldElement.toResidue_xor, add_eq_left] at hsum
  have hzero := FieldElement.eq_zero_of_toResidue_eq_zero hsum
  rw [ofBlock_bit hp hv] at hzero
  have hlt : 8 * position + (7 - value) < 128 := by omega
  have hbit := FieldElement.getMsbD_monomial hlt hlt
  rw [hzero] at hbit
  simp at hbit

namespace Gcm

/-! ## Blocks -/

/-- The first block of a byte string, and those of the rest. -/
theorem blocks_eq {b : Bytes} (h : b ≠ []) :
    blocks b = Bytes.window 16 0 (b.take 16) :: blocks (b.drop 16) := by
  cases b with
  | nil => exact absurd rfl h
  | cons x rest => rw [blocks, List.take_succ_cons, List.drop_succ_cons]

/-- Every byte is in a block. -/
theorem lt_length_blocks {b : Bytes} {i : Nat} (hi : i < b.length) :
    i / 16 < (blocks b).length := by
  induction b using blocks.induct generalizing i with
  | case1 => cases hi
  | case2 x rest ih =>
    rw [blocks, List.length_cons]
    by_cases h : i < 16
    · omega
    · rw [List.length_cons] at hi
      have hrest : i - 16 < (rest.drop 15).length := by
        rw [List.length_drop]
        omega
      have hblock := ih hrest
      omega

/-- **A single bit of a byte string** is a single bit of one of its blocks. -/
theorem blocks_flip {b : Bytes} {i : Nat} (hi : i < b.length) (value : Nat) :
    blocks (b.flip i (UInt8.ofNat (2 ^ value)))
      = (blocks b).modify (i / 16) (·.add (Block.bit (i % 16) value)) := by
  induction b using blocks.induct generalizing i with
  | case1 => cases hi
  | case2 x rest ih =>
    have hne : Bytes.flip (x :: rest) i (UInt8.ofNat (2 ^ value)) ≠ [] := by
      intro h
      have hlen := congrArg List.length h
      rw [Bytes.length_flip] at hlen
      cases hlen
    have hdrop : (x :: rest).drop 16 = rest.drop 15 := List.drop_succ_cons
    rw [blocks_eq hne, blocks_eq (List.cons_ne_nil x rest), hdrop]
    by_cases h : i < 16
    · -- the bit is in the first block
      have hwindow : Bytes.window 16 0
          (Bytes.flip ((x :: rest).take 16) (0 + i) (UInt8.ofNat (2 ^ value)))
          = Block.add (Bytes.window 16 0 ((x :: rest).take 16)) (Block.bit i value) :=
        Bytes.window_flip h (by rw [List.length_take, Nat.zero_add]; omega)
      rw [Nat.zero_add] at hwindow
      unfold Bytes.flip at hwindow ⊢
      rw [List.take_modify, hwindow, List.drop_modify_of_lt _ _ _ _ h, hdrop,
        Nat.div_eq_of_lt h, Nat.mod_eq_of_lt h, List.modify_zero_cons]
    · obtain ⟨k, rfl⟩ : ∃ k, i = k + 16 := ⟨i - 16, by omega⟩
      have hk : k < (rest.drop 15).length := by
        rw [List.length_cons] at hi
        rw [List.length_drop]
        omega
      have hrest := ih hk
      have htake : ((x :: rest).take 16).length ≤ k + 16 := by
        rw [List.length_take]
        omega
      unfold Bytes.flip at hrest ⊢
      rw [List.take_modify, List.modify_eq_self htake, List.drop_modify_of_ge _ _ _ _ (by omega),
        hdrop, Nat.add_sub_cancel, hrest, Nat.add_div_right k (by decide), Nat.add_mod_right,
        List.modify_succ_cons]

/-! ## Tags -/

/-- A change in the first of two lists. -/
theorem modify_append {α : Type} {l r : List α} {f : α → α} {i : Nat} (hi : i < l.length) :
    (l ++ r).modify i f = l.modify i f ++ r := by
  rw [List.modify_eq_take_cons_drop hi, List.modify_eq_take_cons_drop (by simp; omega),
    List.take_append_of_le_length (by omega), List.drop_append_of_le_length (by omega),
    List.getElem_append_left hi, List.append_assoc, List.cons_append]

/-- **A flipped bit of the ciphertext** gives another tag. -/
theorem tag_flip_ne {s : Schedule} (hkey : s.hashKey ≠ 0) (nonce : Block) {ciphertext : Bytes}
    {i value : Nat} (hi : i < ciphertext.length) (hv : value < 8) :
    tag s nonce (ciphertext.flip i (UInt8.ofNat (2 ^ value))) ≠ tag s nonce ciphertext := by
  intro h
  unfold tag at h
  dsimp only at h
  have hhash := FieldElement.toBlock_injective (Block.add_left_inj.mp h)
  have hk := lt_length_blocks hi
  rw [Bytes.length_flip, blocks_flip hi, ← modify_append hk] at hhash
  refine hash_modify_bit_ne hkey ?_ (Nat.mod_lt i (by decide)) hv hhash
  rw [List.length_append]
  omega

/-- **A flipped bit of the nonce** gives another initial counter. -/
theorem initialCounter_add_bit_ne {s : Schedule} (hkey : s.hashKey ≠ 0) (nonce : Block)
    {position value : Nat} (hp : position < 16) (hv : value < 8) :
    initialCounter s (nonce.add (Block.bit position value)) ≠ initialCounter s nonce := by
  show hash s.hashKey ([nonce, lengthBlock 16].modify 0 (·.add (Block.bit position value)))
    ≠ hash s.hashKey [nonce, lengthBlock 16]
  exact hash_modify_bit_ne hkey Nat.zero_lt_two hp hv

/-- **A flipped bit of the nonce** gives another tag. -/
theorem tag_nonce_ne {s : Schedule} (hkey : s.hashKey ≠ 0) (nonce : Block) (ciphertext : Bytes)
    {position value : Nat} (hp : position < 16) (hv : value < 8) :
    tag s (nonce.add (Block.bit position value)) ciphertext ≠ tag s nonce ciphertext := by
  intro h
  have hcipher := Aes.encrypt_injective s.roundKeys (Block.add_right_inj.mp h)
  exact initialCounter_add_bit_ne hkey nonce hp hv (FieldElement.toBlock_injective hcipher)

end Gcm

end Enclave
