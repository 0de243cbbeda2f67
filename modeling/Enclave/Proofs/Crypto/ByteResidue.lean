import Enclave.Crypto.Aes
import Enclave.Proofs.Crypto.Residue

/-!
# The ring of the block cipher

The block cipher multiplies bytes modulo `x⁸ + x⁴ + x³ + x + 1`, with the least
significant bit of a byte as the constant coefficient. Every byte stands for a
residue (`Aes.toResidue`), and the inverse of a byte for its 254th power.

That taking inverses twice gives the byte back is not tried out for all bytes.
Raising to the power 256 is additive, so it moves no residue if it does not
move `x`, and this is one calculation (`Aes.toResidue_pow`). And 254 times 254
leaves the remainder 1 modulo 255.
-/

open Polynomial

namespace Enclave.Aes

/-- **The polynomial that bytes are reduced by.** -/
@[irreducible] noncomputable def modulus : (ZMod 2)[X] := X ^ 8 + X ^ 4 + X ^ 3 + X + 1

/-- The residue of `x`. -/
noncomputable abbrev root : Residue modulus := AdjoinRoot.root modulus

theorem modulus_eq : modulus = X ^ 8 + X ^ 4 + X ^ 3 + X + 1 := by
  unfold modulus
  rfl

theorem natDegree_modulus : modulus.natDegree = 8 := by
  rw [modulus_eq]
  compute_degree!

/-- **What the highest power is reduced to.** -/
theorem root_pow : root ^ 8 = root ^ 4 + root ^ 3 + root + 1 := by
  have h := congrArg (AdjoinRoot.mk modulus) modulus_eq
  rw [AdjoinRoot.mk_self, map_add, map_add, map_add, map_add, map_pow, map_pow, map_pow, map_one,
    AdjoinRoot.mk_X] at h
  linear_combination -h - Residue.add_self (root ^ 4 + root ^ 3 + root + 1)

/-! ## Bytes as residues -/

/-- **The residue that a byte stands for.** -/
noncomputable def toResidue (b : UInt8) : Residue modulus :=
  Residue.ofBits modulus 8 b.toBitVec.getLsbD

@[simp] theorem toResidue_zero : toResidue 0 = 0 := by
  rw [← Residue.ofBits_false 8]
  exact Residue.ofBits_congr (fun i _ => BitVec.getLsbD_zero)

/-- A byte with a single bit is a power of `x`. -/
theorem toResidue_two_pow {k : ℕ} (hk : k < 8) : toResidue (UInt8.ofNat (2 ^ k)) = root ^ k := by
  have hbits : ∀ j i : Fin 8, (UInt8.ofNat (2 ^ j.val)).toBitVec.getLsbD i
      = decide (i.val = j.val) := by decide
  rw [← Residue.ofBits_single hk]
  exact Residue.ofBits_congr (fun i hi => hbits ⟨k, hk⟩ ⟨i, hi⟩)

/-- **Addition is exclusive or.** -/
theorem toResidue_xor (a b : UInt8) : toResidue (a ^^^ b) = toResidue a + toResidue b := by
  unfold toResidue
  rw [← Residue.ofBits_xor]
  refine Residue.ofBits_congr (fun i _ => ?_)
  rw [UInt8.toBitVec_xor, BitVec.getLsbD_xor]

/-- **Different bytes stand for different residues.** -/
theorem toResidue_injective : Function.Injective toResidue := by
  intro a b h
  have hbits := Residue.eq_of_ofBits_eq natDegree_modulus h
  exact UInt8.eq_of_toBitVec_eq (BitVec.eq_of_getLsbD_eq hbits)

/-! ## Multiplication -/

/-- **Doubling multiplies by `x`.** -/
theorem toResidue_double (b : UInt8) : toResidue (double b) = root * toResidue b := by
  have hlast : 0x80 ≤ b ↔ b.toBitVec.getLsbD 7 = true := by
    show 0x80 ≤ b ↔ b.toBitVec.msb = true
    rw [BitVec.msb_eq_decide, decide_eq_true_iff, UInt8.le_iff_toNat_le]
    rfl
  have hmoved : Residue.ofBits modulus 8 (b <<< 1).toBitVec.getLsbD
      + (if b.toBitVec.getLsbD 7 then root ^ 8 else 0)
      = root * Residue.ofBits modulus 8 b.toBitVec.getLsbD := by
    refine Residue.root_mul_ofBits 7 (by simp) (fun i hi => ?_)
    rw [UInt8.toBitVec_shiftLeft, BitVec.getLsbD_shiftLeft']
    simp [show i + 1 < 8 by omega]
  have hreduced : toResidue 0x1b = root ^ 8 := by
    rw [show (0x1b : UInt8) = UInt8.ofNat (2 ^ 4) ^^^ UInt8.ofNat (2 ^ 3) ^^^ UInt8.ofNat (2 ^ 1)
      ^^^ UInt8.ofNat (2 ^ 0) by decide, toResidue_xor, toResidue_xor, toResidue_xor,
      toResidue_two_pow (by decide), toResidue_two_pow (by decide), toResidue_two_pow (by decide),
      toResidue_two_pow (by decide), root_pow, pow_one, pow_zero]
  unfold double
  by_cases h : 0x80 ≤ b
  · rw [if_pos h, toResidue_xor, hreduced]
    rw [if_pos (hlast.mp h)] at hmoved
    exact hmoved
  · rw [if_neg h]
    rw [if_neg (hlast.not.mp h), add_zero] at hmoved
    exact hmoved

/-- Horner's scheme over the bits of a byte from a given one on. -/
theorem toResidue_foldr (a b : UInt8) (i n : ℕ) :
    toResidue ((List.range' i n).foldr
        (fun i acc => double acc ^^^ (if b.toBitVec.getLsbD i then a else 0)) 0)
      = Residue.ofBits modulus n (fun j => b.toBitVec.getLsbD (i + j)) * toResidue a := by
  induction n generalizing i with
  | zero => rw [List.range'_zero, List.foldr_nil, toResidue_zero, Residue.ofBits_zero, zero_mul]
  | succ n ih =>
    have hpick : toResidue (if b.toBitVec.getLsbD i then a else 0)
        = (if b.toBitVec.getLsbD i then 1 else 0) * toResidue a := by
      split
      · rw [one_mul]
      · rw [zero_mul, toResidue_zero]
    rw [List.range'_succ, List.foldr_cons, toResidue_xor, toResidue_double, ih, hpick,
      Residue.ofBits_succ]
    ring

/-- **The product of two bytes** stands for the product of their residues. -/
theorem toResidue_multiply (a b : UInt8) :
    toResidue (multiply a b) = toResidue a * toResidue b := by
  unfold multiply
  rw [List.range_eq_range', toResidue_foldr, mul_comm]
  simp only [Nat.zero_add]
  rfl

/-! ## The inverse -/

/-- **The inverse of a byte** stands for its 254th power. -/
theorem toResidue_inverse (b : UInt8) : toResidue (inverse b) = toResidue b ^ 254 := by
  unfold inverse
  rw [show List.range 6 = [0, 1, 2, 3, 4, 5] from rfl]
  simp only [List.foldl_cons, List.foldl_nil, toResidue_multiply]
  ring

/-- Squaring a byte a number of times. -/
theorem toResidue_iterate_square (b : UInt8) (k : ℕ) :
    toResidue ((fun s => multiply s s)^[k] b) = toResidue b ^ 2 ^ k := by
  induction k with
  | zero => rw [Function.iterate_zero, id_eq, pow_zero, pow_one]
  | succ k ih => rw [Function.iterate_succ_apply', toResidue_multiply, ih, ← pow_add, pow_succ,
      mul_two]

/-- **No byte is moved by the power 256.** -/
theorem toResidue_pow (b : UInt8) : toResidue b ^ 256 = toResidue b := by
  have hroot : root ^ 2 ^ 8 = root := by
    -- squaring the byte that stands for `x` eight times is a calculation
    have htwo : toResidue (UInt8.ofNat (2 ^ 1)) = root := by
      rw [toResidue_two_pow (by decide), pow_one]
    have hsquare : (fun s => multiply s s)^[8] (UInt8.ofNat (2 ^ 1)) = UInt8.ofNat (2 ^ 1) := by
      decide +kernel
    have h := toResidue_iterate_square (UInt8.ofNat (2 ^ 1)) 8
    rw [hsquare, htwo] at h
    exact h.symm
  have hdeg : modulus.natDegree ≠ 0 := by
    rw [natDegree_modulus]
    decide
  show Residue.ofBits modulus 8 b.toBitVec.getLsbD ^ 2 ^ 8 = _
  rw [Residue.ofBits_pow_two_pow hdeg, hroot]
  rfl

/-- **The inverse of the inverse** is the byte. -/
theorem inverse_inverse (b : UInt8) : inverse (inverse b) = b := by
  refine toResidue_injective ?_
  have h := toResidue_pow b
  -- 254 times 254 is 256 times 252 and 4
  calc toResidue (inverse (inverse b))
      = (toResidue b ^ 256) ^ 252 * toResidue b ^ 4 := by
        rw [toResidue_inverse, toResidue_inverse, ← pow_mul, ← pow_mul, ← pow_add]
    _ = toResidue b ^ 252 * toResidue b ^ 4 := by rw [h]
    _ = toResidue b ^ 256 := (pow_add (toResidue b) 252 4).symm
    _ = toResidue b := h

end Enclave.Aes
