import Enclave.Proofs.Evidence.ReportCodec
import Enclave.Sealing.KeyRequest
import Mathlib.Data.List.Induction

/-!
# The layout of key requests

A key request is written as a row of byte strings, some of which hold nothing, and
a processor reads its fields at fixed places. Here each field has its range of
positions (`KeyRequest.Field.start`, `KeyRequest.Field.stop`), and what stands in
the range is the field, whatever the others are (`KeyRequest.slice_toBytes`).

The rest follows from this. A request is told by its bytes, since every field is;
no two ranges have a position in common; a field that is changed leaves no trace
outside of its range; and what lies in no range is zero.
-/

namespace Enclave

namespace KeyRequest

/-- **The fields of a key request.** -/
inductive Field where
  | keyName
  | keyPolicy
  | isvSvn
  | cpuSvn
  | flags
  | xfrm
  | keyId
  | miscMask
  | configSvn
deriving DecidableEq

namespace Field

/-- Where the range of a field starts. -/
def start : Field → Nat
  | keyName => 0
  | keyPolicy => 2
  | isvSvn => 4
  | cpuSvn => 8
  | flags => 24
  | xfrm => 32
  | keyId => 40
  | miscMask => 72
  | configSvn => 76

/-- Where the range of a field ends. -/
def stop : Field → Nat
  | keyName => 2
  | keyPolicy => 4
  | isvSvn => 6
  | cpuSvn => 24
  | flags => 32
  | xfrm => 40
  | keyId => 72
  | miscMask => 76
  | configSvn => 78

/-- A position lies in the range of a field. -/
def Covers (f : Field) (i : Nat) : Prop := f.start ≤ i ∧ i < f.stop

instance (f : Field) (i : Nat) : Decidable (f.Covers i) :=
  inferInstanceAs (Decidable (_ ∧ _))

theorem start_le_stop (f : Field) : f.start ≤ f.stop ∧ f.stop ≤ 512 := by
  cases f <;> decide

/-- **The ranges of two fields have no position in common.** -/
theorem eq_of_covers {f g : Field} {i : Nat} (hf : f.Covers i) (hg : g.Covers i) : f = g := by
  unfold Covers at hf hg
  cases f <;> cases g <;> first | rfl | (simp only [start, stop] at hf hg; omega)

end Field

/-- **A field in bytes**: a number with its least significant byte first. -/
def encoded (r : KeyRequest) : Field → Bytes
  | .keyName => Bytes.littleEndian 2 r.keyName.toNat
  | .keyPolicy => Bytes.littleEndian 2 r.keyPolicy.toNat
  | .isvSvn => Bytes.littleEndian 2 r.isvSvn.toNat
  | .cpuSvn => r.cpuSvn.toList
  | .flags => Bytes.littleEndian 8 r.flags.toNat
  | .xfrm => Bytes.littleEndian 8 r.xfrm.toNat
  | .keyId => r.keyId.toList
  | .miscMask => Bytes.littleEndian 4 r.miscMask.toNat
  | .configSvn => Bytes.littleEndian 2 r.configSvn.toNat

theorem length_encoded (r : KeyRequest) (f : Field) :
    (r.encoded f).length = f.stop - f.start := by
  unfold encoded
  cases f <;> simp only [Bytes.length_littleEndian, Vector.length_toList] <;> rfl

variable {r r' : KeyRequest} {f : Field} {i : Nat}

/-! ## The row of pieces -/

/-- **The pieces that a request is written from**: its fields, and the two runs of
zeros between and behind them. -/
def pieces (r : KeyRequest) : List Bytes :=
  [r.encoded .keyName, r.encoded .keyPolicy, r.encoded .isvSvn, List.replicate 2 0,
    r.encoded .cpuSvn, r.encoded .flags, r.encoded .xfrm, r.encoded .keyId, r.encoded .miscMask,
    r.encoded .configSvn, List.replicate 434 0]

/-- The sizes of the pieces. -/
def sizes : List Nat := [2, 2, 2, 2, 16, 8, 8, 32, 4, 2, 434]

theorem toBytes_eq_flatten (r : KeyRequest) : r.toBytes = r.pieces.flatten := by
  unfold toBytes pieces encoded
  simp only [List.flatten_cons, List.flatten_nil, List.append_nil, List.append_assoc]

theorem map_length_pieces (r : KeyRequest) : r.pieces.map List.length = sizes := by
  unfold pieces encoded
  simp only [List.map_cons, List.map_nil, Bytes.length_littleEndian, Vector.length_toList,
    List.length_replicate]
  rfl

/-- Where a piece starts: behind as many bytes as those in front of it have. -/
def offset (k : Nat) : Nat := (sizes.take k).foldr (· + ·) 0

theorem length_take_pieces (r : KeyRequest) (k : Nat) :
    (r.pieces.take k).flatten.length = offset k := by
  rw [List.length_flatten, List.map_take, map_length_pieces]
  rfl

/-- **A piece is found between its offset and the next one.** -/
theorem slice_piece (r : KeyRequest) (k : Nat) {piece : Bytes} (h : r.pieces[k]? = some piece) :
    r.toBytes.slice (offset k) (offset (k + 1)) = piece := by
  obtain ⟨hk, rfl⟩ := List.getElem?_eq_some_iff.mp h
  rw [toBytes_eq_flatten, ← r.length_take_pieces k, ← r.length_take_pieces (k + 1)]
  exact Bytes.slice_flatten hk

/-- **A field is what stands in its range.** -/
theorem slice_toBytes (r : KeyRequest) (f : Field) :
    r.toBytes.slice f.start f.stop = r.encoded f := by
  cases f with
  | keyName => exact r.slice_piece 0 rfl
  | keyPolicy => exact r.slice_piece 1 rfl
  | isvSvn => exact r.slice_piece 2 rfl
  | cpuSvn => exact r.slice_piece 4 rfl
  | flags => exact r.slice_piece 5 rfl
  | xfrm => exact r.slice_piece 6 rfl
  | keyId => exact r.slice_piece 7 rfl
  | miscMask => exact r.slice_piece 8 rfl
  | configSvn => exact r.slice_piece 9 rfl

/-- Between the third field and the fourth, and behind the last, there are zeros. -/
theorem slice_toBytes_reserved (r : KeyRequest) :
    r.toBytes.slice 6 8 = List.replicate 2 0 ∧ r.toBytes.slice 78 512 = List.replicate 434 0 :=
  ⟨r.slice_piece 3 rfl, r.slice_piece 10 rfl⟩

/-! ## Fields and positions -/

/-- What lies in no range lies between the third and the fourth, or behind the last. -/
theorem covers_or (i : Nat) : (∃ f : Field, f.Covers i) ∨ (6 ≤ i ∧ i < 8) ∨ 78 ≤ i := by
  by_cases h : ∃ f : Field, f.Covers i
  · exact .inl h
  refine .inr ?_
  have hnone := not_exists.mp h
  have h₀ := hnone .keyName
  have h₁ := hnone .keyPolicy
  have h₂ := hnone .isvSvn
  have h₃ := hnone .cpuSvn
  have h₄ := hnone .flags
  have h₅ := hnone .xfrm
  have h₆ := hnone .keyId
  have h₇ := hnone .miscMask
  have h₈ := hnone .configSvn
  simp only [Field.Covers, Field.start, Field.stop] at h₀ h₁ h₂ h₃ h₄ h₅ h₆ h₇ h₈
  omega

/-- **What lies in no range is zero.** -/
theorem getElem?_toBytes_of_not_covers (r : KeyRequest) (h : ∀ f : Field, ¬ f.Covers i)
    (hi : i < 512) : r.toBytes[i]? = some 0 := by
  have hzeros {start stop n : Nat} (hslice : r.toBytes.slice start stop = List.replicate n 0)
      (hstart : start ≤ i) (hstop : i < stop) (hn : i - start < n) : r.toBytes[i]? = some 0 := by
    rw [← Bytes.getElem?_slice r.toBytes hstart hstop, hslice]
    exact List.getElem?_replicate_of_lt hn
  obtain ⟨hgap, htail⟩ := r.slice_toBytes_reserved
  rcases covers_or i with ⟨f, hf⟩ | ⟨h₁, h₂⟩ | h₁
  · exact absurd hf (h f)
  · exact hzeros hgap h₁ h₂ (by omega)
  · exact hzeros htail h₁ hi (by omega)

/-- **A byte of a request is a matter of the field in whose range it lies**, if it lies
in one, and of nothing else. -/
theorem getElem?_toBytes_congr (h : ∀ f : Field, f.Covers i → r.encoded f = r'.encoded f) :
    r.toBytes[i]? = r'.toBytes[i]? := by
  by_cases hi : i < 512
  case neg =>
    rw [List.getElem?_eq_none (by rw [length_toBytes]; omega),
      List.getElem?_eq_none (by rw [length_toBytes]; omega)]
  by_cases hcovers : ∃ f : Field, f.Covers i
  · obtain ⟨f, hf⟩ := hcovers
    rw [← Bytes.getElem?_slice r.toBytes hf.1 hf.2, slice_toBytes, h f hf, ← slice_toBytes r',
      Bytes.getElem?_slice r'.toBytes hf.1 hf.2]
  · rw [getElem?_toBytes_of_not_covers r (not_exists.mp hcovers) hi,
      getElem?_toBytes_of_not_covers r' (not_exists.mp hcovers) hi]

/-! ## Fields filled in one by one -/

/-- **A request with some of its fields filled in**, each written over what was there
before, which at first is zeros. -/
def filledIn (r : KeyRequest) (fields : List Field) : Bytes :=
  fields.foldl (fun out f => out.overwrite f.start (r.encoded f)) (List.replicate 512 0)

theorem filledIn_concat (r : KeyRequest) (fields : List Field) (f : Field) :
    r.filledIn (fields ++ [f]) = (r.filledIn fields).overwrite f.start (r.encoded f) := by
  unfold filledIn
  rw [List.foldl_append]
  rfl

theorem length_filledIn (r : KeyRequest) (fields : List Field) :
    (r.filledIn fields).length = 512 := by
  induction fields using List.reverseRecOn with
  | nil => exact List.length_replicate
  | append_singleton fields f ih => rw [filledIn_concat, Bytes.length_overwrite, ih]

/-- **What is filled in stays**: the ranges of these fields are as they are in the
end, and all else is zero. -/
theorem getElem?_filledIn (r : KeyRequest) (fields : List Field) (hi : i < 512) :
    (r.filledIn fields)[i]?
      = if ∃ f ∈ fields, f.Covers i then r.toBytes[i]? else some 0 := by
  induction fields using List.reverseRecOn with
  | nil =>
    rw [if_neg fun h => List.not_mem_nil h.choose_spec.1]
    exact List.getElem?_replicate_of_lt hi
  | append_singleton fields f ih =>
    have hrange := f.start_le_stop
    have hcovers : f.start ≤ i ∧ i < f.start + (r.encoded f).length ↔ f.Covers i := by
      rw [length_encoded, Nat.add_sub_of_le hrange.1]
      exact Iff.rfl
    have hfits : f.start + (r.encoded f).length ≤ (r.filledIn fields).length := by
      rw [length_encoded, length_filledIn]
      omega
    rw [filledIn_concat, Bytes.getElem?_overwrite hfits]
    by_cases hf : f.Covers i
    · rw [if_pos (hcovers.mpr hf), ← slice_toBytes, Bytes.getElem?_slice _ hf.1 hf.2, if_pos]
      exact ⟨f, List.mem_append_right _ List.mem_cons_self, hf⟩
    · rw [if_neg (hcovers.not.mpr hf), ih]
      simp [hf, or_and_right, exists_or]

/-- **The fields may be filled in in any order.** Once all of them are, it is the
request. -/
theorem filledIn_eq_toBytes (r : KeyRequest) {fields : List Field} (h : ∀ f, f ∈ fields) :
    r.filledIn fields = r.toBytes := by
  refine List.ext_getElem? fun i => ?_
  by_cases hi : i < 512
  case neg =>
    rw [List.getElem?_eq_none (by rw [length_filledIn]; omega),
      List.getElem?_eq_none (by rw [length_toBytes]; omega)]
  rw [getElem?_filledIn r fields hi]
  by_cases hcovers : ∃ f : Field, f.Covers i
  · obtain ⟨f, hf⟩ := hcovers
    exact if_pos ⟨f, h f, hf⟩
  · rw [if_neg fun h => hcovers ⟨h.choose, h.choose_spec.2⟩,
      getElem?_toBytes_of_not_covers r (not_exists.mp hcovers) hi]

/-! ## What a request says -/

/-- **Requests with the same fields in bytes are the same.** -/
theorem ext_encoded (h : ∀ f, r.encoded f = r'.encoded f) : r = r' := by
  cases r
  cases r'
  have hword {n m : UInt16}
      (h : Bytes.littleEndian 2 n.toNat = Bytes.littleEndian 2 m.toNat) : n = m :=
    UInt16.toNat_inj.mp ((Bytes.littleEndian_inj n.toNat_lt m.toNat_lt).mp h)
  have hlong {n m : UInt64}
      (h : Bytes.littleEndian 8 n.toNat = Bytes.littleEndian 8 m.toNat) : n = m :=
    UInt64.toNat_inj.mp ((Bytes.littleEndian_inj n.toNat_lt m.toNat_lt).mp h)
  have hmask {n m : UInt32}
      (h : Bytes.littleEndian 4 n.toNat = Bytes.littleEndian 4 m.toNat) : n = m :=
    UInt32.toNat_inj.mp ((Bytes.littleEndian_inj n.toNat_lt m.toNat_lt).mp h)
  rw [KeyRequest.mk.injEq]
  exact ⟨hword (h .keyName), hword (h .keyPolicy), hword (h .isvSvn),
    Vector.toList_inj.mp (h .cpuSvn), hlong (h .flags), hlong (h .xfrm),
    Vector.toList_inj.mp (h .keyId), hmask (h .miscMask), hword (h .configSvn)⟩

/-- **Requests are told apart by their bytes.** -/
theorem toBytes_injective : Function.Injective toBytes := by
  intro r r' h
  refine ext_encoded fun f => ?_
  rw [← slice_toBytes, ← slice_toBytes, h]

/-- A field that is a number is read back from its range. -/
theorem ofLittleEndian_slice {width n : Nat} (r : KeyRequest) (f : Field)
    (h : r.encoded f = Bytes.littleEndian width n) (hn : n < 256 ^ width) :
    Bytes.ofLittleEndian (r.toBytes.slice f.start f.stop) = n := by
  rw [slice_toBytes, h, Bytes.ofLittleEndian_littleEndian_of_lt hn]

/-- **A request in its bytes**: every field stands at its place, a number with its
least significant byte first, and what is left is zero. -/
structure LaidOut (r : KeyRequest) : Prop where
  /-- There are as many bytes as a processor takes. -/
  length : r.toBytes.length = 512
  keyName : Bytes.ofLittleEndian (r.toBytes.slice 0 2) = r.keyName.toNat
  keyPolicy : Bytes.ofLittleEndian (r.toBytes.slice 2 4) = r.keyPolicy.toNat
  isvSvn : Bytes.ofLittleEndian (r.toBytes.slice 4 6) = r.isvSvn.toNat
  cpuSvn : r.toBytes.slice 8 24 = r.cpuSvn.toList
  flags : Bytes.ofLittleEndian (r.toBytes.slice 24 32) = r.flags.toNat
  xfrm : Bytes.ofLittleEndian (r.toBytes.slice 32 40) = r.xfrm.toNat
  keyId : r.toBytes.slice 40 72 = r.keyId.toList
  miscMask : Bytes.ofLittleEndian (r.toBytes.slice 72 76) = r.miscMask.toNat
  configSvn : Bytes.ofLittleEndian (r.toBytes.slice 76 78) = r.configSvn.toNat
  /-- There is nothing between the third field and the fourth. -/
  gap : r.toBytes.slice 6 8 = List.replicate 2 0
  /-- There is nothing behind the last field. -/
  tail : r.toBytes.slice 78 512 = List.replicate 434 0

theorem laidOut (r : KeyRequest) : r.LaidOut where
  length := r.length_toBytes
  keyName := r.ofLittleEndian_slice .keyName rfl r.keyName.toNat_lt
  keyPolicy := r.ofLittleEndian_slice .keyPolicy rfl r.keyPolicy.toNat_lt
  isvSvn := r.ofLittleEndian_slice .isvSvn rfl r.isvSvn.toNat_lt
  cpuSvn := r.slice_toBytes .cpuSvn
  flags := r.ofLittleEndian_slice .flags rfl r.flags.toNat_lt
  xfrm := r.ofLittleEndian_slice .xfrm rfl r.xfrm.toNat_lt
  keyId := r.slice_toBytes .keyId
  miscMask := r.ofLittleEndian_slice .miscMask rfl r.miscMask.toNat_lt
  configSvn := r.ofLittleEndian_slice .configSvn rfl r.configSvn.toNat_lt
  gap := r.slice_toBytes_reserved.1
  tail := r.slice_toBytes_reserved.2

end KeyRequest

/-- **Key requests and reports are written faithfully.**

Requests with the same bytes are the same in every field. Each field is read back
from its own range of the 512 bytes, and what lies in no range is zero. No two ranges
have a position in common: a request that differs in one field has other bytes in the
range of this field alone, and the fields may be written over 512 zeros in any order.

Byte strings of 432 bytes are read as reports, and no others; the error tells the
size, and never that a part does not lie within the bytes. What was read is written
again as it was, and what was written is read as the report it was. -/
theorem requests_and_reports_faithful :
    (∀ r r' : KeyRequest, r.toBytes = r'.toBytes → r = r')
      ∧ (∀ r : KeyRequest, r.LaidOut)
      ∧ (∀ (f g : KeyRequest.Field) (i : Nat), f.Covers i → g.Covers i → f = g)
      ∧ (∀ (r r' : KeyRequest) (f : KeyRequest.Field), (∀ g ≠ f, r.encoded g = r'.encoded g) →
        ∀ i, ¬ f.Covers i → r.toBytes[i]? = r'.toBytes[i]?)
      ∧ (∀ (r : KeyRequest) (fields : List KeyRequest.Field), (∀ f, f ∈ fields) →
        r.filledIn fields = r.toBytes)
      ∧ (∀ b : Bytes, (∃ r, Report.parse b = .ok r) ↔ b.length = 432)
      ∧ (∀ (b : Bytes) (e : Error), Report.parse b = .error e
        ↔ b.length ≠ 432 ∧ e = .malformedQuote (.reportSize b.length))
      ∧ (∀ b : Bytes, Report.parse b ≠ .error (.malformedQuote .reportLayout))
      ∧ (∀ (b : Bytes) (r : Report), Report.parse b = .ok r → r.toBytes = b)
      ∧ ∀ r : Report, Report.parse r.toBytes = .ok r := by
  refine ⟨fun r r' h => KeyRequest.toBytes_injective h, KeyRequest.laidOut,
    fun f g i => KeyRequest.Field.eq_of_covers, fun r r' f h i hi => ?_,
    fun r fields => r.filledIn_eq_toBytes, fun b => Report.exists_parse_eq_ok_iff, fun b e => Report.parse_eq_error_iff,
    Report.parse_ne_reportLayout, fun b r => Report.toBytes_of_parse, Report.parse_toBytes⟩
  refine KeyRequest.getElem?_toBytes_congr fun g hg => h g ?_
  rintro rfl
  exact hi hg

end Enclave
