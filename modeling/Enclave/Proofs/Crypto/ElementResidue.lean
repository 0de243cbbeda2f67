import Enclave.Proofs.Crypto.Coefficients
import Enclave.Proofs.Crypto.Residue
import Mathlib.Algebra.Ring.GeomSum
import Mathlib.FieldTheory.Separable
import Mathlib.RingTheory.Ideal.Quotient.Nilpotent

/-!
# The ring of the authenticator

The authenticator multiplies modulo `x¹²⁸ + x⁷ + x² + x + 1`. Every element
stands for a residue (`FieldElement.toResidue`), different elements for
different ones, exclusive or for addition and `FieldElement.mul` for
multiplication.

Of the ring only two facts are needed, and neither is that it is a field. The
polynomial is congruent to 1 modulo its own derivative `x⁶ + 1`, so it has no
multiple factor and the ring no nilpotent element (`FieldElement.isReduced`).
And its constant coefficient is 1, so `x` has an inverse
(`FieldElement.isUnit_root`).
-/

open Polynomial

namespace Enclave.FieldElement

/-- **The polynomial that is reduced by.** It is opened by `modulus_eq` alone,
since its highest power is too large to be computed. -/
@[irreducible] noncomputable def modulus : (ZMod 2)[X] := X ^ 128 + X ^ 7 + X ^ 2 + X + 1

/-- The residue of `x`. -/
noncomputable abbrev root : Residue modulus := AdjoinRoot.root modulus

theorem modulus_eq : modulus = X ^ 128 + X ^ 7 + X ^ 2 + X + 1 := by
  unfold modulus
  with_reducible rfl

theorem natDegree_modulus : modulus.natDegree = 128 := by
  rw [modulus_eq]
  compute_degree!

/-- The polynomial is zero in the ring. -/
theorem root_sum : root ^ 128 + root ^ 7 + root ^ 2 + root + 1 = 0 := by
  have h := congrArg (AdjoinRoot.mk modulus) modulus_eq
  rw [AdjoinRoot.mk_self, map_add, map_add, map_add, map_add, map_pow, map_pow, map_pow, map_one,
    AdjoinRoot.mk_X] at h
  exact h.symm

/-- **What the highest power is reduced to.** -/
theorem root_pow : root ^ 128 = 1 + root + root ^ 2 + root ^ 7 := by
  linear_combination root_sum - Residue.add_self (root ^ 7 + root ^ 2 + root + 1)

/-- **The residue of `x` has an inverse.** -/
theorem isUnit_root : IsUnit root := by
  refine IsUnit.of_mul_eq_one (root ^ 127 + root ^ 6 + root + 1) ?_
  linear_combination root_sum - Residue.add_self 1

/-! ## No multiple factor -/

theorem derivative_modulus : derivative modulus = X ^ 6 + 1 := by
  have h : ((128 : ℕ) : ZMod 2) = 0 ∧ ((7 : ℕ) : ZMod 2) = 1 ∧ ((2 : ℕ) : ZMod 2) = 0 := by
    decide
  rw [modulus_eq, derivative_add, derivative_add, derivative_add, derivative_add,
    derivative_X_pow, derivative_X_pow, derivative_X_pow, derivative_X, derivative_one, h.1,
    h.2.1, h.2.2, C_0, C_1]
  ring

/-- **The polynomial and its derivative have no common factor**: modulo
`x⁶ + 1` the first and the third power of the polynomial cancel the fourth and
the second, and 1 remains. -/
theorem separable_modulus : modulus.Separable := by
  -- modulo the derivative, `x¹²⁶` is 1, since 126 is an odd multiple of 6
  have hdvd : (X ^ 6 + 1 : (ZMod 2)[X]) ∣ (X ^ 6) ^ 21 + 1 ^ 21 :=
    Odd.add_dvd_pow_add_pow _ _ (by decide)
  obtain ⟨q, hq⟩ := hdvd
  refine ⟨1, -(X ^ 2 * q + X), ?_⟩
  rw [derivative_modulus, modulus_eq]
  linear_combination X ^ 2 * hq

/-- **No power of a residue vanishes**, except of zero. -/
instance isReduced : IsReduced (Residue modulus) := by
  have hrad : IsRadical modulus := separable_modulus.squarefree.isRadical
  rw [isRadical_iff_span_singleton] at hrad
  exact (Ideal.isRadical_iff_quotient_reduced _).mp hrad

/-! ## Elements as residues -/

/-- **The residue that an element stands for.** -/
noncomputable def toResidue (v : FieldElement) : Residue modulus :=
  Residue.ofBits modulus 128 v.getMsbD

@[simp] theorem toResidue_zero : toResidue 0 = 0 := by
  rw [← Residue.ofBits_false 128]
  exact Residue.ofBits_congr (fun i _ => BitVec.getMsbD_zero)

/-- A single coefficient is a power of `x`. -/
theorem toResidue_monomial {n : ℕ} (hn : n < 128) : (monomial n).toResidue = root ^ n := by
  rw [← Residue.ofBits_single hn]
  exact Residue.ofBits_congr (fun i hi => getMsbD_monomial hn hi)

/-- **Addition is exclusive or.** -/
theorem toResidue_xor (v w : FieldElement) :
    (v ^^^ w).toResidue = v.toResidue + w.toResidue := by
  unfold toResidue
  rw [← Residue.ofBits_xor]
  exact Residue.ofBits_congr (fun i _ => BitVec.getMsbD_xor)

/-- **Different elements stand for different residues.** -/
theorem toResidue_injective : Function.Injective toResidue := by
  intro v w h
  exact BitVec.eq_of_getMsbD_eq (Residue.eq_of_ofBits_eq natDegree_modulus h)

/-- **Only zero stands for zero.** -/
theorem eq_zero_of_toResidue_eq_zero {v : FieldElement} (h : v.toResidue = 0) : v = 0 :=
  toResidue_injective (h.trans toResidue_zero.symm)

/-! ## Multiplication -/

/-- The coefficients that the highest power is reduced to. -/
theorem toResidue_reduction : reduction.toResidue = root ^ 128 := by
  have h : reduction = monomial 0 ^^^ monomial 1 ^^^ monomial 2 ^^^ monomial 7 := by decide
  rw [h, toResidue_xor, toResidue_xor, toResidue_xor, toResidue_monomial (by decide),
    toResidue_monomial (by decide), toResidue_monomial (by decide),
    toResidue_monomial (by decide), root_pow, pow_zero, pow_one]

/-- **One step multiplies by `x`.** -/
theorem toResidue_timesX (v : FieldElement) : (timesX v).toResidue = root * v.toResidue := by
  have hlast : v.getLsbD 0 = v.getMsbD 127 := by
    rw [BitVec.getMsbD_eq_getLsbD]
    rfl
  have hmoved : Residue.ofBits modulus 128 (v >>> 1).getMsbD
      + (if v.getMsbD 127 then root ^ 128 else 0) = root * Residue.ofBits modulus 128 v.getMsbD := by
    refine Residue.root_mul_ofBits 127 (by simp [BitVec.getMsbD_ushiftRight]) (fun i hi => ?_)
    simp [BitVec.getMsbD_ushiftRight, show i + 1 < 128 by omega]
  unfold toResidue
  rw [← hmoved, ← hlast]
  unfold timesX
  split
  · rw [← toResidue_reduction]
    exact toResidue_xor (v >>> 1) reduction
  · rw [add_zero]

/-- The sum of the multiples of an element that another one picks. -/
theorem toResidue_combine (x y : FieldElement) (i n : ℕ) :
    (combine x i (multiples y n)).toResidue
      = Residue.ofBits modulus n (fun j => x.getMsbD (i + j)) * y.toResidue := by
  induction n generalizing i y with
  | zero => rw [multiples, combine, toResidue_zero, Residue.ofBits_zero, zero_mul]
  | succ n ih =>
    have hpick : (if x.getMsbD i then y else 0).toResidue
        = (if x.getMsbD i then 1 else 0) * y.toResidue := by
      split
      · rw [one_mul]
      · rw [zero_mul, toResidue_zero]
    rw [multiples, combine, toResidue_xor, hpick, ih, toResidue_timesX, Residue.ofBits_succ]
    ring

/-- **The product of two elements** stands for the product of their
residues. -/
theorem toResidue_mul (x y : FieldElement) :
    (mul x y).toResidue = x.toResidue * y.toResidue := by
  unfold mul
  rw [toResidue_combine]
  simp only [Nat.zero_add]
  rfl

end Enclave.FieldElement
