import Mathlib.Algebra.CharP.Algebra
import Mathlib.Algebra.CharP.Lemmas
import Mathlib.Algebra.Field.ZMod
import Mathlib.RingTheory.AdjoinRoot
import Mathlib.Tactic.ComputeDegree
import Mathlib.Tactic.LinearCombination

/-!
# Bits as residues

Both the block cipher and the authenticator multiply strings of bits as binary
polynomials modulo a fixed one, the cipher bytes and the authenticator blocks.
Here is what the two have in common. The bits of a string are the coefficients
of a residue (`Residue.ofBits`), exclusive or is addition, and moving the bits
by one place is multiplication by `x`, up to the bit that falls out
(`Residue.root_mul_ofBits`). Below the degree of the polynomial, different bits
give different residues (`Residue.eq_of_ofBits_eq`), so that what is to be
known about bits can be calculated in the ring.
-/

open Polynomial

namespace Enclave

/-- **Binary polynomials modulo a polynomial.** -/
abbrev Residue (p : (ZMod 2)[X]) := AdjoinRoot p

namespace Residue

variable {p : (ZMod 2)[X]}

/-- In the ring, one and one make zero. -/
theorem two_eq_zero : (2 : Residue p) = 0 := by
  have hone := congrArg (AdjoinRoot.of p) (show (1 + 1 : ZMod 2) = 0 from rfl)
  rw [map_add, map_one, map_zero, one_add_one_eq_two] at hone
  exact hone

/-- A sum of two equal elements is zero. -/
@[simp] theorem add_self (a : Residue p) : a + a = 0 := by
  rw [← two_mul, two_eq_zero, zero_mul]

/-- The ring has characteristic two, unless the polynomial is constant. -/
theorem charP (h : p.natDegree ≠ 0) : CharP (Residue p) 2 := by
  have : Nontrivial (Residue p) :=
    AdjoinRoot.nontrivial p (fun hdeg => h (natDegree_eq_of_degree_eq_some hdeg))
  exact charP_of_injective_algebraMap (AdjoinRoot.of p).injective 2

variable (p) in
/-- **The residue with given coefficients**, the first `n` of a sequence of
bits. -/
noncomputable def ofBits (n : ℕ) (bit : ℕ → Bool) : Residue p :=
  ∑ i ∈ Finset.range n, if bit i then AdjoinRoot.root p ^ i else 0

@[simp] theorem ofBits_zero (bit : ℕ → Bool) : ofBits p 0 bit = 0 := Finset.sum_range_zero _

/-- Only the first bits matter. -/
theorem ofBits_congr {n : ℕ} {bit bit' : ℕ → Bool} (h : ∀ i < n, bit i = bit' i) :
    ofBits p n bit = ofBits p n bit' := by
  unfold ofBits
  refine Finset.sum_congr rfl (fun i hi => ?_)
  rw [h i (Finset.mem_range.mp hi)]

/-- **Exclusive or is addition.** -/
theorem ofBits_xor (n : ℕ) (bit bit' : ℕ → Bool) :
    ofBits p n (fun i => bit i ^^ bit' i) = ofBits p n bit + ofBits p n bit' := by
  unfold ofBits
  rw [← Finset.sum_add_distrib]
  refine Finset.sum_congr rfl (fun i _ => ?_)
  by_cases h : bit i <;> by_cases h' : bit' i <;> simp [h, h']

/-- No bit at all is zero. -/
@[simp] theorem ofBits_false (n : ℕ) : ofBits p n (fun _ => false) = 0 :=
  Finset.sum_eq_zero (fun _ _ => if_neg Bool.false_ne_true)

/-- **A single bit is a power of `x`.** -/
theorem ofBits_single {n k : ℕ} (hk : k < n) :
    ofBits p n (fun i => decide (i = k)) = AdjoinRoot.root p ^ k := by
  unfold ofBits
  rw [Finset.sum_eq_single_of_mem k (Finset.mem_range.mpr hk)]
  · rw [if_pos (decide_eq_true rfl)]
  · intro i _ hne
    rw [if_neg (by simpa using hne)]

/-- **Horner's scheme** over the bits from a given one on: the first of them,
and `x` times the rest. -/
theorem ofBits_succ (i n : ℕ) (bit : ℕ → Bool) :
    ofBits p (n + 1) (fun j => bit (i + j))
      = AdjoinRoot.root p * ofBits p n (fun j => bit (i + 1 + j)) + (if bit i then 1 else 0) := by
  unfold ofBits
  rw [Finset.sum_range_succ', Finset.mul_sum, pow_zero]
  refine congrArg (· + _) (Finset.sum_congr rfl (fun j _ => ?_))
  show (if bit (i + (j + 1)) then _ else _) = _
  rw [mul_ite, mul_zero, ← pow_succ', ← Nat.add_assoc, Nat.add_right_comm]

/-- **Moving every bit up by one place multiplies by `x`**, but for the bit
that leaves. -/
theorem root_mul_ofBits (n : ℕ) {bit moved : ℕ → Bool} (h₀ : moved 0 = false)
    (h : ∀ i < n, moved (i + 1) = bit i) :
    ofBits p (n + 1) moved + (if bit n then AdjoinRoot.root p ^ (n + 1) else 0)
      = AdjoinRoot.root p * ofBits p (n + 1) bit := by
  unfold ofBits
  rw [Finset.mul_sum, Finset.sum_range_succ' _ n, Finset.sum_range_succ _ n, h₀,
    if_neg Bool.false_ne_true, add_zero, mul_ite, mul_zero, ← pow_succ']
  refine congrArg (· + _) (Finset.sum_congr rfl (fun i hi => ?_))
  rw [h i (Finset.mem_range.mp hi), mul_ite, mul_zero, ← pow_succ']

/-- **Raising to a power of two** is done coefficient by coefficient. -/
theorem ofBits_pow_two_pow (hp : p.natDegree ≠ 0) (n k : ℕ) (bit : ℕ → Bool) :
    ofBits p n bit ^ 2 ^ k
      = ∑ i ∈ Finset.range n, if bit i then (AdjoinRoot.root p ^ 2 ^ k) ^ i else 0 := by
  have := charP hp
  unfold ofBits
  rw [sum_pow_char_pow]
  refine Finset.sum_congr rfl (fun i _ => ?_)
  split
  · rw [← pow_mul, ← pow_mul, mul_comm]
  · exact zero_pow (by positivity)

/-! ## Different bits, different residues -/

/-- The polynomial with given coefficients. -/
noncomputable def polynomial (n : ℕ) (bit : ℕ → Bool) : (ZMod 2)[X] :=
  ∑ i ∈ Finset.range n, if bit i then X ^ i else 0

theorem mk_polynomial (n : ℕ) (bit : ℕ → Bool) :
    AdjoinRoot.mk p (polynomial n bit) = ofBits p n bit := by
  unfold polynomial ofBits
  rw [map_sum]
  refine Finset.sum_congr rfl (fun i _ => ?_)
  split
  · rw [map_pow, AdjoinRoot.mk_X]
  · exact map_zero _

theorem coeff_polynomial {n i : ℕ} (bit : ℕ → Bool) (hi : i < n) :
    (polynomial n bit).coeff i = if bit i then 1 else 0 := by
  unfold polynomial
  rw [finsetSum_coeff, Finset.sum_eq_single_of_mem i (Finset.mem_range.mpr hi)]
  · split
    · rw [coeff_X_pow, if_pos rfl]
    · exact coeff_zero _
  · intro j _ hj
    split
    · rw [coeff_X_pow, if_neg hj.symm]
    · exact coeff_zero _

theorem degree_polynomial_lt (n : ℕ) (bit : ℕ → Bool) :
    (polynomial n bit).degree < n := by
  refine (degree_sum_le _ _).trans_lt ?_
  have hbot : (⊥ : WithBot ℕ) < n := WithBot.bot_lt_coe n
  rw [Finset.sup_lt_iff hbot]
  intro i hi
  split
  · rw [degree_X_pow]
    exact_mod_cast Finset.mem_range.mp hi
  · rw [degree_zero]
    exact hbot

/-- **Only zero bits give zero**, below the degree of the polynomial. -/
theorem eq_false_of_ofBits_eq_zero {n : ℕ} (hp : p.natDegree = n) {bit : ℕ → Bool}
    (h : ofBits p n bit = 0) : ∀ i < n, bit i = false := by
  intro i hi
  have hne : p ≠ 0 := by
    rintro rfl
    rw [natDegree_zero] at hp
    omega
  rw [← mk_polynomial, AdjoinRoot.mk_eq_zero] at h
  have hdeg : (polynomial n bit).degree < p.degree := by
    rw [degree_eq_natDegree hne, hp]
    exact degree_polynomial_lt n bit
  have hcoeff := coeff_polynomial bit hi
  rw [eq_zero_of_dvd_of_degree_lt h hdeg, coeff_zero] at hcoeff
  by_contra hbit
  rw [if_pos (by simpa using hbit)] at hcoeff
  exact zero_ne_one hcoeff

/-- **Different bits give different residues**, below the degree of the
polynomial. -/
theorem eq_of_ofBits_eq {n : ℕ} (hp : p.natDegree = n) {bit bit' : ℕ → Bool}
    (h : ofBits p n bit = ofBits p n bit') : ∀ i < n, bit i = bit' i := by
  intro i hi
  have hsum : ofBits p n (fun i => bit i ^^ bit' i) = 0 := by
    rw [ofBits_xor, h, add_self]
  have hxor := eq_false_of_ofBits_eq_zero hp hsum i hi
  simpa using hxor

end Residue

end Enclave
