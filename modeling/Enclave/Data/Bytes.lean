/-!
# Byte strings

Everything the enclave exchanges with its surroundings is a byte string:
claims, quotes, reports, sealed blobs, file contents. A byte string is a list
of bytes, and a field whose size a layout fixes is a vector of that size, so
that a length never has to be carried along as a side condition.

Three operations cover all the layouts of the library. `Bytes.window` reads a
field of fixed size at an offset, `Bytes.littleEndian` writes a number least
significant byte first, and `Bytes.ofLittleEndian` reads such a number back.
-/

namespace Enclave

/-- **A byte string** of any length. -/
abbrev Bytes := List UInt8

namespace Bytes

/-- **The bytes of a half-open range** of positions, cut to the length of the
string. -/
def slice (b : Bytes) (start stop : Nat) : Bytes :=
  (b.drop start).take (stop - start)

@[simp] theorem length_slice (b : Bytes) (start stop : Nat) :
    (slice b start stop).length = min (stop - start) (b.length - start) := by
  simp [slice]

/-- **The field of `n` bytes that starts at an offset.** A position outside
the string reads as zero, so that the field is total; every layout asks for
the length of the string before it reads a field. -/
def window (n start : Nat) (b : Bytes) : Vector UInt8 n :=
  Vector.ofFn fun i => b.getD (start + i) 0

@[simp] theorem getElem_window {n start i : Nat} (b : Bytes) (h : i < n) :
    (window n start b)[i] = b.getD (start + i) 0 := by
  simp [window]

/-- **A number written least significant byte first**, in a field of the given
width. What does not fit the width is dropped. -/
def littleEndian : Nat → Nat → Bytes
  | 0, _ => []
  | width + 1, n => UInt8.ofNat n :: littleEndian width (n / 256)

@[simp] theorem length_littleEndian (width n : Nat) :
    (littleEndian width n).length = width := by
  induction width generalizing n with
  | zero => rfl
  | succ width ih => simp [littleEndian, ih]

/-- **The number a byte string stands for** when its first byte is the least
significant one. -/
def ofLittleEndian : Bytes → Nat
  | [] => 0
  | b :: rest => b.toNat + 256 * ofLittleEndian rest

/-- **The byte string followed by zeros** up to a length. A string that is
already longer stays as it is. -/
def padTo (n : Nat) (b : Bytes) : Bytes :=
  b ++ List.replicate (n - b.length) 0

/-- **The byte string with one byte changed** by a bit mask. Out of range
nothing changes. -/
def flip (b : Bytes) (i : Nat) (mask : UInt8) : Bytes :=
  b.modify i (· ^^^ mask)

/-- **The byte string with another one written over it** from an offset on.
Bytes that would fall outside are dropped, so the length stays. -/
def overwrite (b : Bytes) (start : Nat) (new : Bytes) : Bytes :=
  b.take start ++ new.take (b.length - start) ++ b.drop (start + new.length)

@[simp] theorem length_overwrite (b new : Bytes) (start : Nat) :
    (overwrite b start new).length = b.length := by
  simp [overwrite]
  omega

/-- The UTF-8 encoding of a text. -/
def ofText (s : String) : Bytes :=
  s.toByteArray.data.toList

/-- The bytes of a byte string, packed. -/
def toByteArray (b : Bytes) : ByteArray :=
  ⟨b.toArray⟩

end Bytes

end Enclave
