import Enclave.Proofs.Fields
import Enclave.Sealing.Blob

/-!
# The framing of sealed blobs

A byte string is a blob in a layout exactly when it is as long as the header
of the layout and the number in its first four bytes say
(`Blob.WellFramed`). Then its parts are the four consecutive fields, and
putting them back together gives the same byte string (`Blob.toBytes_parts`).
Conversely the bytes of a blob are well framed in its own layout, and have the
blob as their parts, as long as its ciphertext has a length that four bytes
can state (`Blob.parse_toBytes`). Reading and writing blobs are therefore
inverse to each other, and no byte of an accepted blob is without meaning.
-/

namespace Enclave

namespace Blob

/-- The number in the length field. -/
def declared (b : Bytes) : Nat := Bytes.ofLittleEndian (b.take 4)

/-- Four bytes state no length beyond the largest one. -/
theorem declared_le (b : Bytes) : declared b ≤ maxLength := by
  have hlt := Bytes.ofLittleEndian_lt (b.take 4)
  have hpow := Nat.pow_le_pow_right (n := 256) (by decide) (List.length_take_le 4 b)
  exact Nat.le_of_lt_succ (Nat.lt_of_lt_of_le hlt hpow)

/-- **A byte string that is framed as a blob**: behind the header there are as
many bytes as the length field says. -/
def WellFramed (layout : Layout) (b : Bytes) : Prop :=
  b.length = layout.headerSize + declared b

/-- **The fields of a byte string**, at their places in a layout. -/
def parts (layout : Layout) (b : Bytes) : Blob where
  nonce := if layout = .nonced then some (Bytes.window 16 4 b) else none
  tag := Bytes.window 16 (layout.headerSize - 16) b
  ciphertext := b.drop layout.headerSize

/-- The layout that a blob is written in. -/
def layout (b : Blob) : Layout :=
  match b.nonce with
  | some _ => .nonced
  | none => .legacy

@[simp] theorem layout_parts (l : Layout) (b : Bytes) : (parts l b).layout = l := by
  cases l <;> rfl

theorem nonce_eq_none {b : Blob} (h : b.layout = .legacy) : b.nonce = none := by
  obtain ⟨nonce, tag, ciphertext⟩ := b
  cases nonce with
  | none => rfl
  | some n => cases h

/-- A header takes at least 20 bytes. -/
theorem le_headerSize (l : Layout) : 20 ≤ l.headerSize := by
  cases l <;> decide

theorem length_ciphertext_parts {l : Layout} {b : Bytes} (h : WellFramed l b) :
    (parts l b).ciphertext.length = declared b := by
  unfold WellFramed at h
  show (b.drop l.headerSize).length = _
  rw [List.length_drop, h, Nat.add_sub_cancel_left]

/-! ## Reading -/

/-- A field that does not fit ends the reading, and one that fits has no
effect on it. -/
theorem require_bind {α : Type} (size fieldEnd : Nat) (f : Unit → Except BlobFault α) :
    (require size fieldEnd >>= f)
      = if size < fieldEnd then .error (.truncated fieldEnd size) else f () := by
  unfold require
  split <;> rfl

/-- **Reading a blob**, as a chain of questions about lengths: whether each
field fits, and whether anything is left over. -/
theorem parse_eq (l : Layout) (b : Bytes) :
    parse l b
      = if b.length < 4 then .error (.truncated 4 b.length)
        else if l = .nonced ∧ b.length < 20 then .error (.truncated 20 b.length)
        else if b.length < l.headerSize then .error (.truncated l.headerSize b.length)
        else if b.length < l.headerSize + declared b then
          .error (.truncated (l.headerSize + declared b) b.length)
        else if b.length - l.headerSize ≠ declared b then
          .error (.wrongLength (declared b) (b.length - l.headerSize))
        else .ok (parts l b) := by
  have hleft : ∀ r : Except BlobFault Blob,
      (if b.length - l.headerSize ≠ declared b then
        (do
          throw (.wrongLength (declared b) (b.length - l.headerSize))
          r)
        else r)
      = if b.length - l.headerSize ≠ declared b then
          .error (.wrongLength (declared b) (b.length - l.headerSize))
        else r := by
    intro r
    split <;> rfl
  unfold parse
  simp only [require_bind, List.length_drop]
  cases l with
  | legacy =>
    simp only [reduceCtorEq, if_false, false_and]
    rw [← hleft]
    rfl
  | nonced =>
    simp only [if_true, true_and]
    rw [← hleft]
    rfl

/-- **A well framed byte string is read as its parts.** -/
theorem parse_of_wellFramed {l : Layout} {b : Bytes} (h : WellFramed l b) :
    parse l b = .ok (parts l b) := by
  have hl := le_headerSize l
  unfold WellFramed at h
  rw [parse_eq, if_neg (by omega), if_neg (by omega), if_neg (by omega), if_neg (by omega),
    if_neg (by omega)]

/-- **Nothing else is read.** -/
theorem parse_of_not_wellFramed {l : Layout} {b : Bytes} (h : ¬ WellFramed l b) :
    ∃ fault, parse l b = .error fault := by
  have hl := le_headerSize l
  unfold WellFramed at h
  rw [parse_eq]
  by_cases h₁ : b.length < 4
  · exact ⟨_, if_pos h₁⟩
  rw [if_neg h₁]
  by_cases h₂ : l = .nonced ∧ b.length < 20
  · exact ⟨_, if_pos h₂⟩
  rw [if_neg h₂]
  by_cases h₃ : b.length < l.headerSize
  · exact ⟨_, if_pos h₃⟩
  rw [if_neg h₃]
  by_cases h₄ : b.length < l.headerSize + declared b
  · exact ⟨_, if_pos h₄⟩
  rw [if_neg h₄]
  exact ⟨_, if_pos (by omega)⟩

/-! ## Writing -/

/-- The bytes in front of the ciphertext. -/
def header (b : Blob) : Bytes :=
  Bytes.littleEndian 4 b.ciphertext.length
    ++ (match b.nonce with | some n => n.toList | none => []) ++ b.tag.toList

theorem toBytes_eq (b : Blob) : b.toBytes = b.header ++ b.ciphertext := rfl

@[simp] theorem length_header (b : Blob) : b.header.length = b.layout.headerSize := by
  unfold header layout
  cases b.nonce <;> simp [Layout.headerSize]

theorem length_toBytes (b : Blob) :
    b.toBytes.length = b.layout.headerSize + b.ciphertext.length := by
  rw [toBytes_eq, List.length_append, length_header]

/-- **The length field states the length of the ciphertext**, if it can. -/
theorem declared_toBytes {b : Blob} (h : b.ciphertext.length ≤ maxLength) :
    declared b.toBytes = b.ciphertext.length := by
  unfold declared toBytes
  rw [List.append_assoc, List.append_assoc, List.take_left' (Bytes.length_littleEndian _ _)]
  exact Bytes.ofLittleEndian_littleEndian_of_lt (Nat.lt_of_le_of_lt h (by decide))

theorem wellFramed_toBytes {b : Blob} (h : b.ciphertext.length ≤ maxLength) :
    WellFramed b.layout b.toBytes := by
  unfold WellFramed
  rw [length_toBytes, declared_toBytes h]

/-- **The parts of the bytes of a blob** are the blob. -/
theorem parts_toBytes (b : Blob) : parts b.layout b.toBytes = b := by
  have hc : b.toBytes.drop b.layout.headerSize = b.ciphertext := by
    rw [toBytes_eq, List.drop_left' (length_header b)]
  obtain ⟨nonce, tag, ciphertext⟩ := b
  unfold parts
  rw [hc]
  cases nonce with
  | none =>
    have ht := Bytes.window_append (Bytes.littleEndian 4 ciphertext.length) tag ciphertext
    rw [Bytes.length_littleEndian] at ht
    show Blob.mk none (Bytes.window 16 4 (_ ++ [] ++ _ ++ _)) ciphertext = _
    rw [List.append_nil, ht]
  | some nonce =>
    have hn := Bytes.window_append (Bytes.littleEndian 4 ciphertext.length) nonce
      (tag.toList ++ ciphertext)
    have ht := Bytes.window_append (Bytes.littleEndian 4 ciphertext.length ++ nonce.toList) tag
      ciphertext
    rw [← List.append_assoc, Bytes.length_littleEndian] at hn
    rw [List.length_append, Bytes.length_littleEndian, Vector.length_toList] at ht
    show Blob.mk (some (Bytes.window 16 4 (_ ++ _ ++ _ ++ _)))
      (Bytes.window 16 20 (_ ++ _ ++ _ ++ _)) ciphertext = _
    rw [hn, ht]

/-- **The bytes of a blob are read as the blob.** -/
theorem parse_toBytes {b : Blob} (h : b.ciphertext.length ≤ maxLength) :
    parse b.layout b.toBytes = .ok b := by
  rw [parse_of_wellFramed (wellFramed_toBytes h), parts_toBytes]

/-- **The parts of a well framed byte string, written again**, give the same
byte string. -/
theorem toBytes_parts {l : Layout} {b : Bytes} (h : WellFramed l b) :
    (parts l b).toBytes = b := by
  have hl := le_headerSize l
  have hlen : l.headerSize ≤ b.length := Nat.le.intro h.symm
  -- the length that is written is the one that was read
  have hn : Bytes.littleEndian 4 (parts l b).ciphertext.length = b.take 4 := by
    have h₄ : (b.take 4).length = 4 := by
      rw [List.length_take]
      omega
    have hfield := Bytes.littleEndian_ofLittleEndian (b.take 4)
    rw [h₄] at hfield
    rw [length_ciphertext_parts h]
    exact hfield
  unfold toBytes
  rw [hn]
  cases l with
  | legacy =>
    show b.take 4 ++ [] ++ (Bytes.window 16 4 b).toList ++ b.drop 20 = b
    rw [List.append_nil, Bytes.toList_window hlen, Bytes.take_append_slice b (by decide),
      List.take_append_drop]
  | nonced =>
    show b.take 4 ++ (Bytes.window 16 4 b).toList ++ (Bytes.window 16 20 b).toList ++ b.drop 36 = b
    rw [Bytes.toList_window (by omega), Bytes.toList_window hlen,
      Bytes.take_append_slice b (by decide), Bytes.take_append_slice b (by decide),
      List.take_append_drop]

end Blob

end Enclave
