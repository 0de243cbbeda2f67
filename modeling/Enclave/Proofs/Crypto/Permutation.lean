import Enclave.Proofs.Crypto.Coefficients
import Enclave.Proofs.Crypto.Substitution

/-!
# The cipher tells blocks apart

Under every list of round keys, different blocks are enciphered differently
(`Aes.encrypt_injective`). Each step of a round can be undone: the substitution
because inversion and the affine map can, the rotation of the rows because it
moves every position somewhere else, the mixing of the columns because done
four times it leaves everything in its place (`Aes.mixColumns_four`), and the
addition of a key because adding it twice adds nothing.
-/

namespace Enclave.Aes

/-! ## Substituting, moving and mixing -/

/-- A block is substituted byte by byte. -/
theorem substitute_injective : Function.Injective substitute := by
  intro s t h
  refine Vector.ext (fun i hi => substituteByte_injective ?_)
  have hi' := congrArg (fun v : Block => v[i]) h
  unfold substitute at hi'
  rwa [Vector.getElem_map, Vector.getElem_map] at hi'

/-- **Every position of a block is moved to**: position `j` comes from as many
columns back as its row says. -/
theorem shiftRows_injective : Function.Injective shiftRows := by
  intro s t h
  refine Vector.ext (fun j hj => ?_)
  have hi : (j + 12 * (j % 4)) % 16 < 16 := Nat.mod_lt _ (by decide)
  have hij : ((j + 12 * (j % 4)) % 16 + 4 * ((j + 12 * (j % 4)) % 16 % 4)) % 16 = j := by omega
  have heq := congrArg (fun v : Block => v[(j + 12 * (j % 4)) % 16]) h
  unfold shiftRows at heq
  simpa only [Vector.getElem_ofFn, hij] using heq

@[simp] theorem below_zero (s : Block) (i : Fin 16) : below s i 0 = s[i] := by
  unfold below
  congr 1
  omega

/-- A column has four rows. -/
@[simp] theorem below_add_four (s : Block) (i : Fin 16) (k : Nat) :
    below s i (k + 4) = below s i k := by
  unfold below
  congr 1
  omega

/-- **A row of a mixed column**, by the rows of the column. -/
theorem toResidue_below_mixColumns (s : Block) (i : Fin 16) (k : Nat) :
    toResidue (below (mixColumns s) i k)
      = root * toResidue (below s i k) + (root + 1) * toResidue (below s i (k + 1))
        + toResidue (below s i (k + 2)) + toResidue (below s i (k + 3)) := by
  -- going down `k` rows and then `m` rows stays within the column
  have hbelow : ∀ m, below s ⟨4 * (i.val / 4) + (i.val % 4 + k) % 4, by omega⟩ m
      = below s i (k + m) := by
    intro m
    unfold below
    congr 1
    dsimp only
    omega
  rw [below, mixColumns, Vector.getElem_ofFn, hbelow, hbelow, hbelow, hbelow, toResidue_xor,
    toResidue_xor, toResidue_xor, toResidue_xor, toResidue_double, toResidue_double, Nat.add_zero]
  ring

/-- Mixing twice only mixes rows that are two apart. -/
theorem toResidue_below_mixColumns_twice (s : Block) (i : Fin 16) (k : Nat) :
    toResidue (below (mixColumns (mixColumns s)) i k)
      = (root ^ 2 + 1) * toResidue (below s i k)
        + root ^ 2 * toResidue (below s i (k + 2)) := by
  rw [toResidue_below_mixColumns, toResidue_below_mixColumns, toResidue_below_mixColumns,
    toResidue_below_mixColumns, toResidue_below_mixColumns]
  have h₄ := below_add_four s i k
  have h₅ := below_add_four s i (k + 1)
  have h₆ := below_add_four s i (k + 2)
  simp only [Nat.add_assoc, Nat.reduceAdd] at h₅ h₆ ⊢
  rw [h₄, h₅, h₆]
  linear_combination ((root + 1) * toResidue (below s i k)
    + (root ^ 2 + root + 1) * toResidue (below s i (k + 1))
    + (2 * root + 1) * (toResidue (below s i (k + 2)) + toResidue (below s i (k + 3))))
    * Residue.two_eq_zero

/-- **Mixing four times** changes nothing. -/
theorem mixColumns_four (s : Block) :
    mixColumns (mixColumns (mixColumns (mixColumns s))) = s := by
  refine Vector.ext (fun i hi => toResidue_injective ?_)
  have h := toResidue_below_mixColumns_twice (mixColumns (mixColumns s)) ⟨i, hi⟩ 0
  rw [toResidue_below_mixColumns_twice s ⟨i, hi⟩ 0, toResidue_below_mixColumns_twice s ⟨i, hi⟩ 2,
    below_add_four s ⟨i, hi⟩ 0] at h
  simp only [below_zero] at h
  refine h.trans ?_
  show _ = toResidue s[i]
  linear_combination ((root ^ 4 + root ^ 2) * toResidue s[i]
    + (root ^ 4 + root ^ 2) * toResidue (below s ⟨i, hi⟩ 2)) * Residue.two_eq_zero

theorem mixColumns_injective : Function.Injective mixColumns :=
  Function.LeftInverse.injective (g := fun s => mixColumns (mixColumns (mixColumns s)))
    mixColumns_four

/-! ## Rounds -/

/-- **The rounds tell blocks apart**, however many there are. -/
theorem rounds_injective (keys : List Block) : Function.Injective (fun s => rounds s keys) := by
  induction keys with
  | nil => exact Function.injective_id
  | cons k rest ih =>
    intro s t h
    cases rest with
    | nil =>
      -- the last round mixes no columns
      exact substitute_injective (shiftRows_injective (Block.add_left_inj.mp h))
    | cons k' rest =>
      exact substitute_injective (shiftRows_injective (mixColumns_injective
        (Block.add_left_inj.mp (ih h))))

/-- **Different blocks are enciphered differently**, whatever the round keys. -/
theorem encrypt_injective (keys : List Block) : Function.Injective (encrypt keys) := by
  cases keys with
  | nil => exact Function.injective_id
  | cons k rest =>
    intro s t h
    exact Block.add_left_inj.mp (rounds_injective rest h)

/-- The block of zeros under the key of zeros. -/
theorem encrypt_zero : encrypt (roundKeys Block.zero) Block.zero
    = #v[0x66, 0xe9, 0x4b, 0xd4, 0xef, 0x8a, 0x2c, 0x3b, 0x88, 0x4c, 0xfa, 0x59, 0xca, 0x34, 0x2b,
      0x2e] := by
  simp only [encrypt, rounds, roundKeys, roundKeysFrom, roundConstants, nextKey, substitute,
    substituteByte_eq_tabulated]
  decide +kernel

end Enclave.Aes
