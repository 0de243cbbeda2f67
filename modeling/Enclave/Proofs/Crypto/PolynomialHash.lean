import Enclave.Crypto.Gcm
import Enclave.Proofs.Crypto.ElementResidue

/-!
# The polynomial hash notices a single bit

The hash of a list of blocks is the value of a polynomial at the hash key, by
Horner's scheme. Adding a block to one member of the list adds the block times
a power of the hash key to the value (`Gcm.horner_modify`). If the block has a
single bit, it stands for a power of `x`, which has an inverse, and a power of
the hash key only vanishes together with the hash key. So a hash key that is
not zero notices every single bit (`Gcm.hash_modify_bit_ne`), in a list of any
length.
-/

namespace Enclave

/-- **A single bit has an inverse** in the ring. -/
theorem Block.isUnit_toResidue_bit {position value : Nat} (hp : position < 16) (hv : value < 8) :
    IsUnit (FieldElement.ofBlock (bit position value)).toResidue := by
  rw [ofBlock_bit hp hv, FieldElement.toResidue_monomial (by omega)]
  exact FieldElement.isUnit_root.pow _

namespace Gcm

/-- **Horner's scheme** over the residues of blocks, at a point and from a
value on. -/
noncomputable def horner (point start : Residue FieldElement.modulus) (bs : List Block) : Residue FieldElement.modulus :=
  bs.foldl (fun acc b => (acc + (FieldElement.ofBlock b).toResidue) * point) start

@[simp] theorem horner_nil (point start : Residue FieldElement.modulus) : horner point start [] = start := rfl

@[simp] theorem horner_cons (point start : Residue FieldElement.modulus) (b : Block) (bs : List Block) :
    horner point start (b :: bs)
      = horner point ((start + (FieldElement.ofBlock b).toResidue) * point) bs := rfl

/-- **The hash stands for a polynomial** in the hash key. -/
theorem toResidue_hash (point : FieldElement) (bs : List Block) :
    (hash point bs).toResidue = horner point.toResidue 0 bs := by
  have hfold : ∀ start : FieldElement,
      (bs.foldl (fun acc b => (acc ^^^ FieldElement.ofBlock b).mul point) start).toResidue
        = horner point.toResidue start.toResidue bs := by
    induction bs with
    | nil => exact fun start => rfl
    | cons b bs ih =>
      intro start
      rw [List.foldl_cons, ih, horner_cons, FieldElement.toResidue_mul,
        FieldElement.toResidue_xor]
  rw [hash_eq_foldl_mul, hfold, FieldElement.toResidue_zero]

/-- What two schemes over the same blocks differ in is what they started from
differ in, times a power of the point. -/
theorem horner_add_horner (point start start' : Residue FieldElement.modulus) (bs : List Block) :
    horner point start bs + horner point start' bs = (start + start') * point ^ bs.length := by
  induction bs generalizing start start' with
  | nil => simp
  | cons b bs ih =>
    have hb := Residue.add_self (FieldElement.ofBlock b).toResidue
    rw [horner_cons, horner_cons, ih, List.length_cons, pow_succ']
    linear_combination point * point ^ bs.length * hb

/-- **What a block adds to the value** when it is added to a member of the
list: itself, times a power of the point. -/
theorem horner_modify (point start : Residue FieldElement.modulus) {bs : List Block} {k : Nat} (hk : k < bs.length)
    (d : Block) :
    horner point start (bs.modify k (·.add d)) + horner point start bs
      = (FieldElement.ofBlock d).toResidue * point ^ (bs.length - k) := by
  induction bs generalizing start k with
  | nil => cases hk
  | cons b bs ih =>
    cases k with
    | zero =>
      -- the blocks behind the changed one see another start, and nothing else
      have hb := Residue.add_self (FieldElement.ofBlock b).toResidue
      have hs := Residue.add_self start
      rw [List.modify_zero_cons, horner_cons, horner_cons, horner_add_horner,
        FieldElement.ofBlock_add, FieldElement.toResidue_xor, List.length_cons, Nat.sub_zero,
        pow_succ']
      linear_combination point * point ^ bs.length * (hb + hs)
    | succ k =>
      rw [List.modify_succ_cons, horner_cons, horner_cons, ih _ (Nat.lt_of_succ_lt_succ hk),
        List.length_cons, Nat.add_sub_add_right]

/-- **A single bit changes the hash**, wherever it is, unless the hash key is
zero. -/
theorem hash_modify_bit_ne {point : FieldElement} (hpoint : point ≠ 0) {bs : List Block} {k : Nat}
    (hk : k < bs.length) {position value : Nat} (hp : position < 16) (hv : value < 8) :
    hash point (bs.modify k (·.add (Block.bit position value))) ≠ hash point bs := by
  intro heq
  -- the difference of the two hashes is a unit times a power of the hash key
  have hsum := horner_modify point.toResidue 0 hk (Block.bit position value)
  rw [← toResidue_hash, ← toResidue_hash, heq, Residue.add_self] at hsum
  have hpow : point.toResidue ^ (bs.length - k) = 0 :=
    (Block.isUnit_toResidue_bit hp hv).mul_right_eq_zero.mp hsum.symm
  exact hpoint (FieldElement.eq_zero_of_toResidue_eq_zero (eq_zero_of_pow_eq_zero hpow))

end Gcm

end Enclave
