import Enclave.Json.Decode
import Enclave.Proofs.Hexadecimal

/-!
# Measurements as text

A measurement is written as 64 digits in lower case, and read from 64 digits in either
case, on its own or as a JSON text. `Measurement.text_codec` says that this is all
there is to it. What is written is read again; what is read is written again, up to the
case of its letters; and a text that is refused is refused for the first of three
faults that it has. Lengths and positions in a fault count bytes, so that a text with
characters of several bytes may be refused for its length before any of them is
looked at.
-/

namespace Enclave.Measurement

/-- **What is written of a measurement.** -/
structure WrittenAsText (m : Measurement) : Prop where
  /-- There are 64 characters, -/
  length : m.toText.length = 64
  /-- all of which are digits in lower case. -/
  digits : ∀ c ∈ m.toText.toList, Hex.IsLowerDigit c.toNat
  /-- It is read as the measurement, -/
  ofText : ofText m.toText = .ok m
  /-- also where it stands in JSON. -/
  toMeasurement : (Json.string m.toText).toMeasurement = .ok m

/-- **What reading a text as a measurement comes to.** -/
structure ReadAsText (s : String) : Prop where
  /-- It succeeds for 64 digits of either case. -/
  ok_iff : (∃ m, ofText s = .ok m) ↔ s.length = 64 ∧ ∀ c ∈ s.toList, Hex.IsDigit c.toNat
  /-- What was read is written as the text in lower case. -/
  toText : ∀ m, ofText s = .ok m → m.toText = s.toLower
  /-- An odd number of bytes is reported, whatever they are, -/
  oddLength : s.utf8ByteSize % 2 = 1 → ofText s = .error .oddLength
  /-- or else the first byte that is no digit, with its position, -/
  invalidDigit : s.utf8ByteSize % 2 = 0 → ∀ (before : Bytes) (b : UInt8) (after : Bytes),
    Bytes.ofText s = before ++ b :: after → (∀ d ∈ before, Hex.IsDigit d.toNat) →
    ¬ Hex.IsDigit b.toNat → ofText s = .error (.invalidDigit b before.length)
  /-- or else another number of digits than 64. -/
  wrongLength : s.utf8ByteSize % 2 = 0 → (∀ b ∈ Bytes.ofText s, Hex.IsDigit b.toNat) →
    s.utf8ByteSize ≠ 64 → ofText s = .error .wrongLength
  /-- In JSON the text comes to the same. -/
  toMeasurement : (Json.string s).toMeasurement = (ofText s).mapError .badHex

/-- **Reading the text of a measurement** is reading a field of 32 bytes. -/
theorem ofText_eq_ok_iff {s : String} {m : Measurement} :
    ofText s = .ok m ↔ Hex.decodeField 32 s = .ok m.bytes := by
  unfold ofText
  cases Hex.decodeField 32 s with
  | error e => exact ⟨nofun, nofun⟩
  | ok v =>
    constructor
    · intro h
      cases h
      rfl
    · intro h
      rw [Except.ok.inj h]
      rfl

theorem ofText_eq_error {s : String} {e : HexError} (h : Hex.decodeField 32 s = .error e) :
    ofText s = .error e := by
  unfold ofText
  rw [h]
  rfl

/-- In JSON, a text is read as it is elsewhere. -/
theorem toMeasurement_string (s : String) :
    (Json.string s).toMeasurement = (ofText s).mapError .badHex := rfl

/-- What is written of a measurement is read again. -/
theorem writtenAsText (m : Measurement) : WrittenAsText m := by
  have hread : ofText m.toText = .ok m := ofText_eq_ok_iff.mpr (Hex.decodeField_encode m.bytes)
  refine ⟨?_, fun c hc => Hex.isLowerDigit_of_mem_encode hc, hread, ?_⟩
  · unfold toText
    rw [Hex.length_encode, length_toBytes]
  · rw [toMeasurement_string, hread]
    rfl

/-- Reading a text succeeds, or fails with the first fault. -/
theorem readAsText (s : String) : ReadAsText s where
  ok_iff := by
    rw [← Hex.exists_decodeField_eq_ok_iff (n := 32)]
    constructor
    · rintro ⟨m, h⟩
      exact ⟨m.bytes, ofText_eq_ok_iff.mp h⟩
    · rintro ⟨v, h⟩
      exact ⟨⟨v⟩, ofText_eq_ok_iff.mpr h⟩
  toText _ h := Hex.encode_of_decodeField (ofText_eq_ok_iff.mp h)
  oddLength h := ofText_eq_error (Hex.decodeField_of_odd h)
  invalidDigit heven _ _ _ hs hbefore hb :=
    ofText_eq_error (Hex.decodeField_of_first heven hs hbefore hb)
  wrongLength heven h hsize := ofText_eq_error (Hex.decodeField_of_size_ne heven h hsize)
  toMeasurement := toMeasurement_string s

/-- **The codec of measurements as text**: what is written is read again, and of every
text it is known what reading comes to. -/
theorem text_codec : (∀ m : Measurement, WrittenAsText m) ∧ ∀ s : String, ReadAsText s :=
  ⟨writtenAsText, readAsText⟩

end Enclave.Measurement
