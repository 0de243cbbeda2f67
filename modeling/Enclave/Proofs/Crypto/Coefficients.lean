import Enclave.Crypto.BinaryField
import Mathlib.Algebra.Group.Nat.Defs
import Mathlib.Data.List.GetD
import Mathlib.Data.List.Induction

/-!
# Blocks and their coefficients

A block of 16 bytes is read as 128 coefficients, the most significant bit of
the first byte being the constant one. This module says so for every single
coefficient (`FieldElement.getMsbD_ofBlock`), and that writing an element as a
block and reading it again are inverse to each other. Adding blocks byte by
byte is adding their elements, and the block that has a single bit set is the
element with a single coefficient.
-/

namespace Enclave

namespace FieldElement

/-- **The element with one coefficient.** -/
def monomial (n : Nat) : FieldElement := BitVec.twoPow 128 (127 - n)

theorem getMsbD_monomial {n i : Nat} (hn : n < 128) (hi : i < 128) :
    (monomial n).getMsbD i = decide (i = n) := by
  unfold monomial
  rw [BitVec.getMsbD_eq_getLsbD, BitVec.getLsbD_twoPow]
  by_cases h : i = n
  · subst h
    simp [hi]
    omega
  · simp [h, hi]
    omega

/-- The bits of bytes that are shifted in one after the other: the last byte
has the lowest ones. -/
theorem getLsbD_foldl (bytes : Bytes) (k : Nat) (hk : k < 128) :
    (bytes.foldl (fun (acc : FieldElement) byte => (acc <<< 8) ^^^ byte.toBitVec.setWidth 128)
      0).getLsbD k = (bytes.reverse.getD (k / 8) 0).toBitVec.getLsbD (k % 8) := by
  -- from the back, since the last byte is the one that is not shifted
  induction bytes using List.reverseRecOn generalizing k with
  | nil => simp
  | append_singleton bytes x ih =>
    rw [List.foldl_append, List.foldl_cons, List.foldl_nil, List.reverse_append,
      List.reverse_singleton, List.singleton_append, BitVec.getLsbD_xor, BitVec.getLsbD_shiftLeft,
      BitVec.getLsbD_setWidth]
    by_cases h : k < 8
    · simp [h, hk, Nat.div_eq_of_lt h, Nat.mod_eq_of_lt h]
    · obtain ⟨j, rfl⟩ : ∃ j, k = j + 8 := ⟨k - 8, by omega⟩
      rw [Nat.add_sub_cancel, ih j (by omega), Nat.add_div_right j (by decide),
        Nat.add_mod_right, List.getD_cons_succ]
      simp [hk]

/-- **The coefficients of a block** are the bits of its bytes, byte by byte
from the first one and each from its most significant bit. -/
theorem getMsbD_ofBlock (b : Block) {i : Nat} (hi : i < 128) :
    (ofBlock b).getMsbD i = (b[i / 8]).toBitVec.getMsbD (i % 8) := by
  have hfold : ofBlock b
      = b.toList.foldl (fun (acc : FieldElement) byte =>
          (acc <<< 8) ^^^ byte.toBitVec.setWidth 128) 0 := by
    unfold ofBlock
    rw [Vector.foldl_toList]
  have hlen : b.toList.length = 16 := by simp
  have hj : (127 - i) / 8 = 15 - i / 8 := by omega
  have hr : (127 - i) % 8 = 7 - i % 8 := by omega
  rw [BitVec.getMsbD_eq_getLsbD, hfold, show 128 - 1 - i = 127 - i from rfl,
    getLsbD_foldl _ _ (by omega), BitVec.getMsbD_eq_getLsbD, hj, hr,
    List.getD_eq_getElem _ _ (by rw [List.length_reverse]; omega), List.getElem_reverse]
  simp only [hlen, Vector.getElem_toList, show 16 - 1 - (15 - i / 8) = i / 8 by omega]
  simp [hi, Nat.mod_lt]

/-- The bits of the block of an element. -/
theorem getMsbD_getElem_toBlock (x : FieldElement) {i j : Nat} (hi : i < 16) (hj : j < 8) :
    ((toBlock x)[i]).toBitVec.getMsbD j = x.getMsbD (8 * i + j) := by
  unfold toBlock
  rw [Vector.getElem_ofFn, BitVec.getMsbD_eq_getLsbD, BitVec.getMsbD_eq_getLsbD]
  show (decide (j < 8) && (x.extractLsb' (8 * (15 - i)) 8).getLsbD (8 - 1 - j)) = _
  rw [BitVec.getLsbD_extractLsb', show 8 * (15 - i) + (8 - 1 - j) = 128 - 1 - (8 * i + j) by omega]
  simp [hj, show 8 * i + j < 128 by omega, show 8 - 1 - j < 8 by omega]

end FieldElement

/-- Blocks are told apart by their bits. -/
theorem Block.ext_getMsbD {a b : Block}
    (h : ∀ (i j : Nat) (hi : i < 16), j < 8 →
      (a[i]).toBitVec.getMsbD j = (b[i]).toBitVec.getMsbD j) : a = b := by
  refine Vector.ext (fun i hi => ?_)
  apply UInt8.eq_of_toBitVec_eq
  exact BitVec.eq_of_getMsbD_eq (fun j hj => h i j hi hj)

namespace FieldElement

/-- **Writing a block that was read** gives the block. -/
@[simp] theorem toBlock_ofBlock (b : Block) : toBlock (ofBlock b) = b := by
  refine Block.ext_getMsbD (fun i j hi hj => ?_)
  rw [getMsbD_getElem_toBlock _ hi hj, getMsbD_ofBlock _ (by omega)]
  simp only [show (8 * i + j) / 8 = i by omega, show (8 * i + j) % 8 = j by omega]

/-- **Reading a block that was written** gives the element. -/
@[simp] theorem ofBlock_toBlock (x : FieldElement) : ofBlock (toBlock x) = x := by
  refine BitVec.eq_of_getMsbD_eq (fun i hi => ?_)
  rw [getMsbD_ofBlock _ hi, getMsbD_getElem_toBlock _ (by omega) (by omega), Nat.div_add_mod]

theorem toBlock_injective : Function.Injective toBlock :=
  Function.LeftInverse.injective ofBlock_toBlock

theorem ofBlock_injective : Function.Injective ofBlock :=
  Function.LeftInverse.injective toBlock_ofBlock

/-- **Adding blocks is adding elements.** -/
theorem ofBlock_add (a b : Block) : ofBlock (a.add b) = ofBlock a ^^^ ofBlock b := by
  refine BitVec.eq_of_getMsbD_eq (fun i hi => ?_)
  rw [BitVec.getMsbD_xor, getMsbD_ofBlock _ hi, getMsbD_ofBlock _ hi, getMsbD_ofBlock _ hi]
  unfold Block.add
  rw [Vector.getElem_zipWith, UInt8.toBitVec_xor, BitVec.getMsbD_xor]

@[simp] theorem ofBlock_zero : ofBlock Block.zero = 0 := by
  refine BitVec.eq_of_getMsbD_eq (fun i hi => ?_)
  rw [getMsbD_ofBlock _ hi]
  simp [Block.zero]

end FieldElement

namespace Block

/-- **The block with a single bit**, of the given value in the byte at the
given position. -/
def bit (position value : Nat) : Block :=
  Vector.ofFn fun i => if i.val = position then UInt8.ofNat (2 ^ value) else 0

/-- The bits of a byte that is a power of two. -/
theorem getMsbD_two_pow {value j : Nat} (hv : value < 8) (hj : j < 8) :
    (UInt8.ofNat (2 ^ value)).toBitVec.getMsbD j = decide (j = 7 - value) := by
  have h : ∀ v k : Fin 8, (UInt8.ofNat (2 ^ v.val)).toBitVec.getMsbD k
      = decide (k.val = 7 - v.val) := by decide
  exact h ⟨value, hv⟩ ⟨j, hj⟩

/-- **A single bit is a single coefficient.** -/
theorem ofBlock_bit {position value : Nat} (hp : position < 16) (hv : value < 8) :
    FieldElement.ofBlock (bit position value)
      = FieldElement.monomial (8 * position + (7 - value)) := by
  refine BitVec.eq_of_getMsbD_eq (fun i hi => ?_)
  rw [FieldElement.getMsbD_ofBlock _ hi, FieldElement.getMsbD_monomial (by omega) hi]
  unfold bit
  rw [Vector.getElem_ofFn]
  by_cases h : i / 8 = position
  · rw [if_pos h, getMsbD_two_pow hv (by omega), decide_eq_decide]
    omega
  · rw [if_neg h]
    have hne : i ≠ 8 * position + (7 - value) := by omega
    simp [hne]

/-- Two blocks stay different when the same one is added to both. -/
@[simp] theorem add_left_inj {a b c : Block} : a.add c = b.add c ↔ a = b := by
  refine ⟨fun h => ?_, fun h => h ▸ rfl⟩
  have hsum := congrArg FieldElement.ofBlock h
  rw [FieldElement.ofBlock_add, FieldElement.ofBlock_add, BitVec.xor_left_inj] at hsum
  exact FieldElement.ofBlock_injective hsum

@[simp] theorem add_right_inj {a b c : Block} : a.add b = a.add c ↔ b = c := by
  refine ⟨fun h => ?_, fun h => h ▸ rfl⟩
  have hsum := congrArg FieldElement.ofBlock h
  rw [FieldElement.ofBlock_add, FieldElement.ofBlock_add, BitVec.xor_right_inj] at hsum
  exact FieldElement.ofBlock_injective hsum

end Block

end Enclave
