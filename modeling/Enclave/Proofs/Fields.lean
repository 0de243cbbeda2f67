import Enclave.Data.Bytes
import Mathlib.Algebra.Group.Nat.Defs
import Mathlib.Data.List.GetD

/-!
# Fields of byte strings

Layouts are written by putting byte strings one after the other and read by
cutting them up again. This module has the laws that connect the two: a field
is the range of positions it covers (`toList_window`), what was put between
two byte strings is found where the first one ends (`slice_append`,
`window_append`), and a number survives being written and read in a field
that it fits (`ofLittleEndian_littleEndian`), as a field survives being read
and written (`littleEndian_ofLittleEndian`).
-/

namespace Enclave.Bytes

/-- A fact about all bytes is one about all numbers below 256. -/
theorem forall_byte {p : UInt8 → Prop} (h : ∀ n : Fin 256, p (UInt8.ofNat n)) (b : UInt8) :
    p b := by
  have hb := h ⟨b.toNat, b.toNat_lt⟩
  rwa [UInt8.ofNat_toNat] at hb

/-! ## Ranges and windows -/

@[simp] theorem slice_zero (b : Bytes) (stop : Nat) : slice b 0 stop = b.take stop := by
  simp [slice]

/-- A range of a range. -/
theorem slice_slice (b : Bytes) {start stop i j : Nat} (h : start + j ≤ stop) :
    slice (slice b start stop) i j = slice b (start + i) (start + j) := by
  unfold slice
  rw [List.drop_take, List.drop_drop, List.take_take]
  congr 1
  omega

/-- A range that ends within a beginning of the byte string. -/
theorem slice_take (b : Bytes) {start stop n : Nat} (h : stop ≤ n) :
    slice (b.take n) start stop = slice b start stop := by
  unfold slice
  rw [List.drop_take, List.take_take, Nat.min_eq_left (Nat.sub_le_sub_right h start)]

/-- A beginning and the range behind it. -/
theorem take_append_slice (b : Bytes) {i j : Nat} (h : i ≤ j) :
    b.take i ++ slice b i j = b.take j := by
  unfold slice
  rw [← List.take_add, Nat.add_sub_of_le h]

/-- **A part is found where it was put**, behind as many bytes as stand in
front of it. -/
theorem slice_append (a b c : Bytes) :
    slice (a ++ b ++ c) a.length (a.length + b.length) = b := by
  unfold slice
  rw [List.append_assoc, List.drop_left, Nat.add_sub_cancel_left, List.take_left]

/-- **The parts of a row** are found behind those in front of them. -/
theorem slice_flatten {parts : List Bytes} {k : Nat} (h : k < parts.length) :
    slice parts.flatten (parts.take k).flatten.length (parts.take (k + 1)).flatten.length
      = parts[k] := by
  have hrow : parts.flatten
      = (parts.take k).flatten ++ parts[k] ++ (parts.drop (k + 1)).flatten := by
    rw [← List.flatten_concat, List.take_append_getElem h, ← List.flatten_append,
      List.take_append_drop]
  have hnext : (parts.take (k + 1)).flatten.length
      = (parts.take k).flatten.length + parts[k].length := by
    rw [List.take_succ_eq_append_getElem h, List.flatten_concat, List.length_append]
  rw [hnext, hrow]
  exact slice_append _ _ _

/-- A position in a range is one in the whole byte string. -/
theorem getElem?_slice (b : Bytes) {start stop i : Nat} (h : start ≤ i) (h' : i < stop) :
    (slice b start stop)[i - start]? = b[i]? := by
  unfold slice
  rw [List.getElem?_take_of_lt (by omega), List.getElem?_drop, Nat.add_sub_of_le h]

/-- **A window is the range it covers**, as long as it ends within the byte
string. -/
theorem toList_window {n start : Nat} {b : Bytes} (h : start + n ≤ b.length) :
    (window n start b).toList = slice b start (start + n) := by
  refine List.ext_getElem (by simp; omega) (fun i h₁ h₂ => ?_)
  have hi : i < n := by simpa using h₁
  have hb : start + i < b.length := by omega
  rw [Vector.getElem_toList, getElem_window, List.getD_eq_getElem _ _ hb]
  simp [slice]

/-- **A field is found where it was put.** -/
theorem window_append {n : Nat} (a : Bytes) (v : Vector UInt8 n) (c : Bytes) :
    window n a.length (a ++ v.toList ++ c) = v := by
  refine Vector.ext (fun i hi => ?_)
  rw [getElem_window, List.append_assoc, List.getD_append_right _ _ _ _ (by omega),
    Nat.add_sub_cancel_left, List.getD_append _ _ _ _ (by simpa using hi),
    List.getD_eq_getElem _ _ (by simpa using hi), Vector.getElem_toList]

/-- A vector read from its own bytes. -/
@[simp] theorem window_toList {n : Nat} (v : Vector UInt8 n) : window n 0 v.toList = v := by
  simpa using window_append [] v []

/-! ## Numbers -/

/-- A field holds numbers below the power of 256 that its width gives. -/
theorem ofLittleEndian_lt (b : Bytes) : ofLittleEndian b < 256 ^ b.length := by
  induction b with
  | nil => simp [ofLittleEndian]
  | cons x rest ih =>
    have hx := x.toNat_lt
    rw [ofLittleEndian, List.length_cons, Nat.pow_succ]
    omega

/-- **A number read back from a field** has lost what did not fit. -/
theorem ofLittleEndian_littleEndian (width n : Nat) :
    ofLittleEndian (littleEndian width n) = n % 256 ^ width := by
  induction width generalizing n with
  | zero => simp [littleEndian, ofLittleEndian, Nat.mod_one]
  | succ width ih =>
    rw [littleEndian, ofLittleEndian, ih, UInt8.toNat_ofNat', show 2 ^ 8 = 256 from rfl,
      show 256 ^ (width + 1) = 256 * 256 ^ width from Nat.pow_succ', Nat.mod_mul]

/-- A number that fits is read back as it was written. -/
theorem ofLittleEndian_littleEndian_of_lt {width n : Nat} (h : n < 256 ^ width) :
    ofLittleEndian (littleEndian width n) = n := by
  rw [ofLittleEndian_littleEndian, Nat.mod_eq_of_lt h]

/-- **A field written back after it was read** is the field. -/
theorem littleEndian_ofLittleEndian (b : Bytes) :
    littleEndian b.length (ofLittleEndian b) = b := by
  induction b with
  | nil => rfl
  | cons x rest ih =>
    have hx : x.toNat < 256 := x.toNat_lt
    rw [List.length_cons, ofLittleEndian, littleEndian]
    congr 1
    · apply UInt8.toNat_inj.mp
      rw [UInt8.toNat_ofNat']
      omega
    · rw [Nat.add_mul_div_left _ _ (by decide), Nat.div_eq_of_lt hx, Nat.zero_add, ih]

/-- **Numbers that fit are told apart** by the fields they are written in. -/
theorem littleEndian_inj {width n m : Nat} (hn : n < 256 ^ width) (hm : m < 256 ^ width) :
    littleEndian width n = littleEndian width m ↔ n = m := by
  refine ⟨fun h => ?_, fun h => h ▸ rfl⟩
  rw [← ofLittleEndian_littleEndian_of_lt hn, h, ofLittleEndian_littleEndian_of_lt hm]

/-- Fields of the same width tell numbers apart. -/
theorem ofLittleEndian_inj {a b : Bytes} (h : a.length = b.length) :
    ofLittleEndian a = ofLittleEndian b ↔ a = b := by
  refine ⟨fun heq => ?_, fun heq => heq ▸ rfl⟩
  rw [← littleEndian_ofLittleEndian a, ← littleEndian_ofLittleEndian b, heq, h]

/-! ## Bytes changed -/

@[simp] theorem length_flip (b : Bytes) (i : Nat) (mask : UInt8) :
    (b.flip i mask).length = b.length := List.length_modify _ _ _

/-- **A byte is changed** by every mask that is not zero. -/
theorem flip_ne {b : Bytes} {i : Nat} {mask : UInt8} (hi : i < b.length) (hmask : mask ≠ 0) :
    b.flip i mask ≠ b := by
  intro h
  have hbyte : (b.flip i mask)[i]? = b[i]? := congrArg (·[i]?) h
  unfold flip at hbyte
  rw [List.getElem?_modify_eq, List.getElem?_eq_getElem hi] at hbyte
  have hxor : b[i] ^^^ mask = b[i] ^^^ 0 := by
    rw [UInt8.xor_zero]
    exact Option.some.inj hbyte
  exact hmask ((UInt8.xor_right_inj _).mp hxor)

/-- A window that the byte is outside of stays as it is. -/
theorem window_flip_of_not_mem {n start i : Nat} (b : Bytes) (mask : UInt8)
    (h : i < start ∨ start + n ≤ i) : window n start (b.flip i mask) = window n start b := by
  refine Vector.ext (fun j hj => ?_)
  rw [getElem_window, getElem_window, List.getD_eq_getElem?_getD, List.getD_eq_getElem?_getD]
  unfold flip
  rw [List.getElem?_modify_ne _ _ (by omega)]

/-- **What is written over a byte string** shows where it was written, and nowhere
else. -/
theorem getElem?_overwrite {b new : Bytes} {start : Nat} (h : start + new.length ≤ b.length)
    (i : Nat) : (overwrite b start new)[i]?
      = if start ≤ i ∧ i < start + new.length then new[i - start]? else b[i]? := by
  have hbefore : (b.take start).length = start := by
    rw [List.length_take]
    omega
  unfold overwrite
  rw [List.take_of_length_le (show new.length ≤ b.length - start by omega), List.append_assoc]
  by_cases h₁ : i < start
  · rw [List.getElem?_append_left (hbefore.symm ▸ h₁), List.getElem?_take_of_lt h₁,
      if_neg fun h => Nat.not_le.mpr h₁ h.1]
  rw [List.getElem?_append_right (by omega), hbefore]
  by_cases h₂ : i < start + new.length
  · rw [List.getElem?_append_left (by omega), if_pos ⟨Nat.le_of_not_lt h₁, h₂⟩]
  · rw [List.getElem?_append_right (by omega), List.getElem?_drop, if_neg fun h => h₂ h.2]
    congr 1
    omega

/-- A range of a byte string with one byte overwritten. -/
theorem slice_set (b : Bytes) (i start stop : Nat) (x : UInt8) :
    slice (b.set i x) start stop
      = if i < start then slice b start stop else (slice b start stop).set (i - start) x := by
  unfold slice
  rw [List.drop_set]
  split
  · rfl
  · exact List.take_set

/-- **A byte that is overwritten shows in the ranges it lies in**, if it becomes
another one, and in no others. -/
theorem slice_set_ne_iff {b : Bytes} {i : Nat} (hi : i < b.length) (x : UInt8)
    (start stop : Nat) :
    slice (b.set i x) start stop ≠ slice b start stop
      ↔ (start ≤ i ∧ i < stop) ∧ x ≠ b[i] := by
  rw [slice_set]
  by_cases hbefore : i < start
  · rw [if_pos hbefore]
    exact iff_of_false (fun h => h rfl) fun h => Nat.not_le.mpr hbefore h.1.1
  rw [if_neg hbefore]
  by_cases hbehind : stop ≤ i
  · have hlength : (slice b start stop).length ≤ i - start := by
      rw [length_slice]
      omega
    rw [List.set_eq_of_length_le hlength]
    exact iff_of_false (fun h => h rfl) fun h => Nat.not_lt.mpr hbehind h.1.2
  -- within the range, the byte at its place there tells
  have hbyte : (slice b start stop)[i - start]? = some b[i] := by
    rw [getElem?_slice b (Nat.le_of_not_lt hbefore) (Nat.lt_of_not_le hbehind),
      List.getElem?_eq_getElem hi]
  obtain ⟨hplace, hget⟩ := List.getElem?_eq_some_iff.mp hbyte
  have hiff : (slice b start stop).set (i - start) x = slice b start stop ↔ x = b[i] := by
    constructor
    · intro h
      rw [← h, List.getElem?_set_self hplace] at hbyte
      exact Option.some.inj hbyte
    · rintro rfl
      rw [← hget]
      exact List.set_getElem_self hplace
  rw [Ne, hiff]
  exact (and_iff_right ⟨Nat.le_of_not_lt hbefore, Nat.lt_of_not_le hbehind⟩).symm

end Enclave.Bytes
