import Enclave.Data.Hex
import Enclave.Proofs.Fields

/-!
# Reading and writing hexadecimal text

Text is read byte by byte of its UTF-8 encoding, while its digits are characters.
The two views agree on plain text, where a character is a byte
(`Bytes.ofText_of_plain`), and whatever is read successfully is plain
(`Bytes.plain_of_ofText`): bytes that are digits are the encoding of digits.

Reading goes pair by pair from the left. If all bytes are digits, it finds the byte
string whose digits these are, in either case (`Hex.decodePairs_of_digits`); else it
stops at the first byte that is none (`Hex.decodePairs_of_first`). There is no third
possibility for a text of even length, so that the outcome of reading a field can be
told from the text: `Hex.exists_decodeField_eq_ok_iff` says which texts are read, and
`Hex.encode_of_decodeField` that they are what is written of the field again, up to
the case of their letters.
-/

namespace Enclave

/-! ## Plain text -/

namespace Bytes

/-- The encoding of a text is that of its characters. -/
theorem ofText_eq (s : String) : ofText s = s.toList.flatMap String.utf8EncodeChar := by
  unfold ofText
  rw [← String.utf8Encode_toList]
  exact List.toList_data_toByteArray

@[simp] theorem length_ofText (s : String) : (ofText s).length = s.utf8ByteSize :=
  Array.length_toList

/-- **Texts are told apart by their encodings.** -/
theorem ofText_injective : Function.Injective ofText := by
  intro s t h
  exact String.toByteArray_inj.mp (ByteArray.ext (Array.toList_inj.mp h))

/-- **A character of plain text is one byte.** -/
theorem ofText_of_plain {s : String} (h : ∀ c ∈ s.toList, c.toNat < 128) :
    ofText s = s.toList.map Char.toUInt8 := by
  rw [ofText_eq, List.map_eq_flatMap, List.flatMap_def, List.flatMap_def]
  refine congrArg List.flatten (List.map_congr_left fun c hc => ?_)
  have hsize : c.utf8Size = 1 := by
    rw [Char.utf8Size_eq_one_iff, UInt32.le_iff_toNat_le]
    exact Nat.le_of_lt_succ (h c hc)
  exact String.utf8EncodeChar_eq_singleton hsize

/-- The number of a character of plain text is that of its byte. -/
theorem toNat_toUInt8 {c : Char} (h : c.toNat < 128) : c.toUInt8.toNat = c.toNat := by
  show c.val.toNat % 256 = c.val.toNat
  exact Nat.mod_eq_of_lt (Nat.lt_trans h (by decide))

/-- **A text is plain if its bytes are**, and then has no characters but those of its
bytes. -/
theorem plain_of_ofText {s : String} (h : ∀ b ∈ ofText s, b.toNat < 128) :
    s.toList = (ofText s).map Char.ofUInt8 := by
  have hplain : ∀ c ∈ (ofText s).map Char.ofUInt8, c.toNat < 128 := by
    intro c hc
    obtain ⟨b, hb, rfl⟩ := List.mem_map.mp hc
    exact h b hb
  -- the bytes of the text are those of a plain one as well
  have hofText : ofText (String.ofList ((ofText s).map Char.ofUInt8)) = ofText s := by
    rw [ofText_of_plain (by rwa [String.toList_ofList]), String.toList_ofList, List.map_map]
    refine (List.map_congr_left fun b _ => ?_).trans (List.map_id _)
    show b.toUInt32.toUInt8 = b
    exact UInt8.toUInt8_toUInt32 b
  rw [← ofText_injective hofText, String.toList_ofList, hofText]

end Bytes

namespace Hex

/-! ## Digits -/

/-- **A hexadecimal digit** of either case, by the number of its character. -/
def IsDigit (code : Nat) : Prop :=
  48 ≤ code ∧ code ≤ 57 ∨ 65 ≤ code ∧ code ≤ 70 ∨ 97 ≤ code ∧ code ≤ 102

/-- **A hexadecimal digit in lower case.** -/
def IsLowerDigit (code : Nat) : Prop :=
  48 ≤ code ∧ code ≤ 57 ∨ 97 ≤ code ∧ code ≤ 102

instance : DecidablePred IsDigit := fun _ => inferInstanceAs (Decidable (_ ∨ _))

instance : DecidablePred IsLowerDigit := fun _ => inferInstanceAs (Decidable (_ ∨ _))

theorem IsDigit.lt {code : Nat} (h : IsDigit code) : code < 128 := by
  unfold IsDigit at h
  omega

theorem IsLowerDigit.isDigit {code : Nat} (h : IsLowerDigit code) : IsDigit code := by
  unfold IsLowerDigit at h
  unfold IsDigit
  omega

/-- **A digit has a value**, which is written as the same digit in lower case. -/
theorem value?_of_isDigit {b : UInt8} (h : IsDigit b.toNat) :
    ∃ v ∈ value? b, v.toNat < 16 ∧ digit v.toNat = (Char.ofUInt8 b).toLower :=
  Bytes.forall_byte (p := fun b => IsDigit b.toNat →
    ∃ v ∈ value? b, v.toNat < 16 ∧ digit v.toNat = (Char.ofUInt8 b).toLower)
    (by decide +kernel) b h

/-- Nothing else has a value. -/
theorem value?_of_not_isDigit {b : UInt8} (h : ¬ IsDigit b.toNat) : value? b = none :=
  Bytes.forall_byte (p := fun b => ¬ IsDigit b.toNat → value? b = none) (by decide +kernel) b h

/-- What is written of a value is a digit in lower case. -/
theorem isLowerDigit_digit : ∀ n < 16, IsLowerDigit (digit n).toNat := by
  decide +kernel

/-- **A digit that is written is read as its value.** -/
theorem value?_digit : ∀ n < 16, value? (digit n).toUInt8 = some (UInt8.ofNat n) := by
  decide +kernel

theorem digitAt_of_some {b v : UInt8} (h : value? b = some v) (position : Nat) :
    digitAt b position = .ok v := by
  unfold digitAt
  rw [h]

theorem digitAt_of_none {b : UInt8} (h : value? b = none) (position : Nat) :
    digitAt b position = .error (.invalidDigit b position) := by
  unfold digitAt
  rw [h]

/-! ## Pairs of digits -/

/-- The byte of two values is written as their digits. -/
theorem encodeByte_pair {h l : UInt8} (hh : h.toNat < 16) (hl : l.toNat < 16) :
    encodeByte (h * 16 + l) = [digit h.toNat, digit l.toNat] := by
  have hbyte : (h * 16 + l).toNat = h.toNat * 16 + l.toNat := by
    rw [UInt8.toNat_add, UInt8.toNat_mul]
    show (h.toNat * 16 % 256 + l.toNat) % 256 = _
    omega
  unfold encodeByte
  rw [hbyte, show (h.toNat * 16 + l.toNat) / 16 = h.toNat by omega,
    show (h.toNat * 16 + l.toNat) % 16 = l.toNat by omega]

/-- A pair of digits is read before the rest. -/
theorem decodePairs_pair {high low h l : UInt8} (hhigh : value? high = some h)
    (hlow : value? low = some l) (position : Nat) (rest : Bytes) :
    decodePairs position (high :: low :: rest)
      = ((h * 16 + l) :: ·) <$> decodePairs (position + 2) rest := by
  rw [decodePairs, digitAt_of_some hhigh, digitAt_of_some hlow]
  show (decodePairs (position + 2) rest >>= fun bytes => pure ((h * 16 + l) :: bytes)) = _
  cases decodePairs (position + 2) rest <;> rfl

/-- **Digits are read as the bytes that they are the digits of**, in either case. -/
theorem decodePairs_of_digits {text : Bytes} (heven : text.length % 2 = 0)
    (h : ∀ b ∈ text, IsDigit b.toNat) (position : Nat) :
    ∃ bytes, decodePairs position text = .ok bytes
      ∧ bytes.flatMap encodeByte = text.map fun b => (Char.ofUInt8 b).toLower := by
  induction position, text using decodePairs.induct with
  | case1 position high low rest ih =>
    obtain ⟨vh, hvh, hvh₁₆, hhigh⟩ := value?_of_isDigit (h high List.mem_cons_self)
    obtain ⟨vl, hvl, hvl₁₆, hlow⟩ :=
      value?_of_isDigit (h low (List.mem_cons_of_mem _ List.mem_cons_self))
    have hrest : rest.length % 2 = 0 := by
      rw [List.length_cons, List.length_cons] at heven
      omega
    obtain ⟨bytes, hbytes, hwritten⟩ :=
      ih hrest fun b hb => h b (List.mem_cons_of_mem _ (List.mem_cons_of_mem _ hb))
    refine ⟨(vh * 16 + vl) :: bytes, ?_, ?_⟩
    · rw [decodePairs_pair hvh hvl, hbytes]
      rfl
    · rw [List.flatMap_cons, hwritten, encodeByte_pair hvh₁₆ hvl₁₆, hhigh, hlow]
      rfl
  | case2 text position hshort =>
    match text, heven with
    | [], _ => exact ⟨[], rfl, rfl⟩
    | high :: low :: rest, _ => exact (hshort high low rest rfl).elim

/-- **Reading stops at the first byte that is no digit.** -/
theorem decodePairs_of_first {digits rest : Bytes} {b : UInt8}
    (heven : (digits ++ b :: rest).length % 2 = 0) (h : ∀ d ∈ digits, IsDigit d.toNat)
    (hb : ¬ IsDigit b.toNat) (position : Nat) :
    decodePairs position (digits ++ b :: rest)
      = .error (.invalidDigit b (position + digits.length)) := by
  have hnone := value?_of_not_isDigit hb
  induction position, digits using decodePairs.induct with
  | case1 position high low digits ih =>
    obtain ⟨vh, hvh, -⟩ := value?_of_isDigit (h high List.mem_cons_self)
    obtain ⟨vl, hvl, -⟩ := value?_of_isDigit (h low (List.mem_cons_of_mem _ List.mem_cons_self))
    have hdigits : (digits ++ b :: rest).length % 2 = 0 := by
      rw [List.cons_append, List.cons_append, List.length_cons, List.length_cons] at heven
      omega
    rw [List.cons_append, List.cons_append, decodePairs_pair hvh hvl,
      ih hdigits fun d hd => h d (List.mem_cons_of_mem _ (List.mem_cons_of_mem _ hd)),
      Nat.add_right_comm]
    rfl
  | case2 digits position hshort =>
    match digits, rest with
    | [], [] => cases heven
    | [], low :: rest =>
      rw [List.nil_append, decodePairs, digitAt_of_none hnone]
      rfl
    | [high], rest =>
      obtain ⟨v, hv, -⟩ := value?_of_isDigit (h high List.mem_cons_self)
      rw [List.cons_append, List.nil_append, decodePairs, digitAt_of_some hv, digitAt_of_none hnone]
      rfl
    | high :: low :: digits, rest => exact (hshort high low digits rfl).elim

/-- **What is written is read again.** -/
theorem decodePairs_encode (b : Bytes) (position : Nat) :
    decodePairs position ((b.flatMap encodeByte).map Char.toUInt8) = .ok b := by
  induction b generalizing position with
  | nil => rfl
  | cons x b ih =>
    have hx : x.toNat < 256 := x.toNat_lt
    have hhigh := value?_digit (x.toNat / 16) (by omega)
    have hlow := value?_digit (x.toNat % 16) (by omega)
    have hbyte : UInt8.ofNat (x.toNat / 16) * 16 + UInt8.ofNat (x.toNat % 16) = x := by
      apply UInt8.toNat_inj.mp
      rw [UInt8.toNat_add, UInt8.toNat_mul, UInt8.toNat_ofNat', UInt8.toNat_ofNat']
      show (x.toNat / 16 % 256 * 16 % 256 + x.toNat % 16 % 256) % 256 = _
      omega
    show decodePairs position (_ :: _ :: (b.flatMap encodeByte).map Char.toUInt8) = _
    rw [decodePairs_pair hhigh hlow, hbyte, ih]
    rfl

/-! ## Fields -/

variable {n : Nat} {s : String}

/-- **The text of a byte string** consists of digits in lower case, -/
theorem isLowerDigit_of_mem_encode {b : Bytes} {c : Char} (h : c ∈ (encode b).toList) :
    IsLowerDigit c.toNat := by
  unfold encode at h
  rw [String.toList_ofList] at h
  obtain ⟨x, -, hc⟩ := List.mem_flatMap.mp h
  have hx : x.toNat < 256 := x.toNat_lt
  rcases List.mem_cons.mp hc with rfl | hc
  · exact isLowerDigit_digit _ (by omega)
  · rw [List.mem_singleton.mp hc]
    exact isLowerDigit_digit _ (by omega)

/-- two to a byte. -/
@[simp] theorem length_encode (b : Bytes) : (encode b).length = 2 * b.length := by
  unfold encode
  rw [String.length_ofList, List.length_flatMap]
  show (b.map fun _ => 2).sum = _
  rw [List.map_const', List.sum_replicate_nat, Nat.mul_comm]

theorem ofText_encode (b : Bytes) :
    Bytes.ofText (encode b) = (b.flatMap encodeByte).map Char.toUInt8 := by
  rw [Bytes.ofText_of_plain fun c hc => (isLowerDigit_of_mem_encode hc).isDigit.lt]
  unfold encode
  rw [String.toList_ofList]

theorem decode_of_odd (h : s.utf8ByteSize % 2 = 1) : decode s = .error .oddLength := by
  unfold decode
  exact if_pos (by rwa [Bytes.length_ofText])

theorem decode_of_even (h : s.utf8ByteSize % 2 = 0) :
    decode s = decodePairs 0 (Bytes.ofText s) := by
  unfold decode
  exact if_neg (by rw [Bytes.length_ofText]; omega)

/-- **What is written is read again.** -/
theorem decode_encode (b : Bytes) : decode (encode b) = .ok b := by
  have hsize : (encode b).utf8ByteSize % 2 = 0 := by
    rw [← Bytes.length_ofText, ofText_encode, List.length_map]
    have hlength := length_encode b
    unfold encode at hlength
    rw [String.length_ofList] at hlength
    omega
  rw [decode_of_even hsize, ofText_encode, decodePairs_encode]

/-- **Text of digits only** is read, and what is read is written as the text in lower
case. -/
theorem decode_of_digits (heven : s.utf8ByteSize % 2 = 0)
    (h : ∀ b ∈ Bytes.ofText s, IsDigit b.toNat) :
    ∃ bytes, decode s = .ok bytes ∧ encode bytes = s.toLower
      ∧ 2 * bytes.length = s.utf8ByteSize := by
  obtain ⟨bytes, hbytes, hwritten⟩ :=
    decodePairs_of_digits (by rwa [Bytes.length_ofText]) h 0
  have hlower : encode bytes = s.toLower := by
    unfold encode String.toLower
    rw [hwritten, String.map_eq_internal, Bytes.plain_of_ofText fun b hb => (h b hb).lt,
      List.map_map]
    rfl
  refine ⟨bytes, (decode_of_even heven).trans hbytes, hlower, ?_⟩
  have hlength := congrArg List.length hwritten
  rw [List.length_map, Bytes.length_ofText] at hlength
  rw [← hlength, ← length_encode, encode, String.length_ofList]

theorem decodeField_of_error {e : HexError} (h : decode s = .error e) :
    decodeField n s = .error e := by
  unfold decodeField
  rw [h]
  rfl

theorem decodeField_of_ok {bytes : Bytes} (h : decode s = .ok bytes) :
    decodeField n s
      = if bytes.length = n then .ok (Bytes.window n 0 bytes) else .error .wrongLength := by
  unfold decodeField
  rw [h]
  rfl

/-- **A field that is written is read again.** -/
theorem decodeField_encode (v : Vector UInt8 n) : decodeField n (encode v.toList) = .ok v := by
  rw [decodeField_of_ok (decode_encode _), if_pos (Vector.length_toList), Bytes.window_toList]

/-! ## What is said of other texts -/

/-- **An odd number of bytes is found first**, whatever they are. -/
theorem decodeField_of_odd (h : s.utf8ByteSize % 2 = 1) :
    decodeField n s = .error .oddLength :=
  decodeField_of_error (decode_of_odd h)

/-- **The first byte that is no digit is found next.** -/
theorem decodeField_of_first (heven : s.utf8ByteSize % 2 = 0) {digits rest : Bytes} {b : UInt8}
    (hs : Bytes.ofText s = digits ++ b :: rest) (h : ∀ d ∈ digits, IsDigit d.toNat)
    (hb : ¬ IsDigit b.toNat) : decodeField n s = .error (.invalidDigit b digits.length) := by
  refine decodeField_of_error ?_
  rw [← Bytes.length_ofText, hs] at heven
  rw [decode_of_even (by rwa [← Bytes.length_ofText, hs]), hs, decodePairs_of_first heven h hb,
    Nat.zero_add]

/-- **Digits that are not as many as the field has** are found last. -/
theorem decodeField_of_size_ne (heven : s.utf8ByteSize % 2 = 0)
    (h : ∀ b ∈ Bytes.ofText s, IsDigit b.toNat) (hsize : s.utf8ByteSize ≠ 2 * n) :
    decodeField n s = .error .wrongLength := by
  obtain ⟨bytes, hbytes, -, hlength⟩ := decode_of_digits heven h
  rw [decodeField_of_ok hbytes, if_neg (by omega)]

/-- **As many digits as the field has** are read, and written again in lower case. -/
theorem decodeField_of_digits (h : ∀ b ∈ Bytes.ofText s, IsDigit b.toNat)
    (hsize : s.utf8ByteSize = 2 * n) :
    ∃ v, decodeField n s = .ok v ∧ encode v.toList = s.toLower := by
  obtain ⟨bytes, hbytes, hlower, hlength⟩ := decode_of_digits (by omega) h
  have hn : bytes.length = n := by omega
  refine ⟨_, (decodeField_of_ok hbytes).trans (if_pos hn), ?_⟩
  rw [Bytes.toList_window (by omega), Bytes.slice_zero, List.take_of_length_le (by omega), hlower]

/-- **What is read as a field** has nothing but digits, as many as the field has. -/
theorem digits_of_decodeField {v : Vector UInt8 n} (h : decodeField n s = .ok v) :
    (∀ b ∈ Bytes.ofText s, IsDigit b.toNat) ∧ s.utf8ByteSize = 2 * n := by
  rcases Nat.mod_two_eq_zero_or_one s.utf8ByteSize with heven | hodd
  case inr => exact absurd (h.symm.trans (decodeField_of_odd hodd)) nofun
  cases hfirst : (Bytes.ofText s).find? fun b => decide ¬ IsDigit b.toNat with
  | some b =>
    obtain ⟨hb, digits, rest, hs, hdigits⟩ := List.find?_eq_some_iff_append.mp hfirst
    have herror : decodeField n s = _ := decodeField_of_first heven hs
      (fun d hd => by simpa using hdigits d hd) (of_decide_eq_true hb)
    exact absurd (h.symm.trans herror) nofun
  | none =>
    have hdigits : ∀ b ∈ Bytes.ofText s, IsDigit b.toNat := fun b hb => by
      simpa using List.find?_eq_none.mp hfirst b hb
    refine ⟨hdigits, by_contra fun hsize => ?_⟩
    exact absurd (h.symm.trans (decodeField_of_size_ne heven hdigits hsize)) nofun

/-- **Bytes that are digits** belong to characters that are digits, and these are as
many. -/
theorem digits_iff : ((∀ b ∈ Bytes.ofText s, IsDigit b.toNat) ∧ s.utf8ByteSize = 2 * n)
    ↔ s.length = 2 * n ∧ ∀ c ∈ s.toList, IsDigit c.toNat := by
  rw [← Bytes.length_ofText, ← String.length_toList]
  constructor
  · rintro ⟨h, hsize⟩
    rw [Bytes.plain_of_ofText fun b hb => (h b hb).lt]
    refine ⟨by rwa [List.length_map], fun c hc => ?_⟩
    obtain ⟨b, hb, rfl⟩ := List.mem_map.mp hc
    exact h b hb
  · rintro ⟨hlength, h⟩
    rw [Bytes.ofText_of_plain fun c hc => (h c hc).lt]
    refine ⟨fun b hb => ?_, by rwa [List.length_map]⟩
    obtain ⟨c, hc, rfl⟩ := List.mem_map.mp hb
    rw [Bytes.toNat_toUInt8 (h c hc).lt]
    exact h c hc

/-- **What is read as a field**: digits, as many as the field has. -/
theorem exists_decodeField_eq_ok_iff : (∃ v, decodeField n s = .ok v)
    ↔ s.length = 2 * n ∧ ∀ c ∈ s.toList, IsDigit c.toNat := by
  rw [← digits_iff]
  constructor
  · rintro ⟨v, h⟩
    exact digits_of_decodeField h
  · rintro ⟨h, hsize⟩
    obtain ⟨v, hv, -⟩ := decodeField_of_digits h hsize
    exact ⟨v, hv⟩

/-- **What was read is written as the text in lower case.** -/
theorem encode_of_decodeField {v : Vector UInt8 n} (h : decodeField n s = .ok v) :
    encode v.toList = s.toLower := by
  obtain ⟨hdigits, hsize⟩ := digits_of_decodeField h
  obtain ⟨v', hv', hlower⟩ := decodeField_of_digits hdigits hsize
  rw [h] at hv'
  rwa [Except.ok.inj hv']

end Hex

end Enclave
