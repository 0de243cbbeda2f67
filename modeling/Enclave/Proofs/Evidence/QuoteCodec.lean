import Enclave.Proofs.Attestation.Decision
import Enclave.Proofs.Evidence.EmulatedEvidence

/-!
# Writing and reading quotes

A quote is written as a row of byte strings and read at fixed places, and the
places are reckoned differently on the two sides. Here both are given as ranges
of the whole quote, where they can be compared: a quote that was written is zero
everywhere but in three of them (`Quote.Written`), and those are the ranges that
the accessors read, in whatever byte string they are applied to
(`Quote.ReadInPlace`).

That an accessor is a matter of one range and nothing else is said by an
equivalence for each of the three (`Quote.version_eq_iff`,
`Quote.measurement_eq_iff`, `Quote.reportData_eq_iff`). What becomes of a quote
in which a byte is overwritten, and that the bytes behind the body have no part
in the local decision, are then facts about ranges.
-/

namespace Enclave

/-- Report bodies are told apart by their bytes. -/
theorem ReportBody.toBytes_inj {b c : ReportBody} : b.toBytes = c.toBytes ↔ b = c := by
  obtain ⟨b⟩ := b
  obtain ⟨c⟩ := c
  rw [ReportBody.mk.injEq]
  exact Vector.toList_inj

/-- A run of zeros in a byte string. -/
theorem Bytes.getElem?_zeros (a c : Bytes) {n i : Nat} (h : a.length ≤ i)
    (h' : i < a.length + n) : (a ++ List.replicate n 0 ++ c)[i]? = some 0 := by
  have hlt : i - a.length < n := by omega
  rw [List.append_assoc, List.getElem?_append_right h,
    List.getElem?_append_left (by rwa [List.length_replicate]), List.getElem?_replicate,
    if_pos hlt]

namespace Quote

/-! ## What is written -/

section Written

variable (v : UInt16) (m : Measurement) (d : ReportData)

/-- **The body of a quote without signature** stands behind the header. -/
theorem slice_unsigned_body (body : ReportBody) :
    (unsigned v body).slice 48 432 = body.toBytes := by
  have h := Bytes.slice_append (Bytes.littleEndian 2 v.toNat ++ List.replicate 46 0) body.toBytes
    (List.replicate 4 0)
  rwa [List.length_append, Bytes.length_littleEndian, List.length_replicate,
    ReportBody.length_toBytes] at h

/-- **The bytes of a quote without signature**, as three fields between zeros. -/
theorem unsigned_of :
    unsigned v (.of m d)
      = Bytes.littleEndian 2 v.toNat ++ List.replicate 110 0 ++ m.toBytes
        ++ List.replicate 224 0 ++ d.toBytes ++ List.replicate 4 0 := by
  have hzeros : List.replicate 110 (0 : UInt8) = List.replicate 46 0 ++ List.replicate 64 0 :=
    (List.replicate_append_replicate (n := 46) (m := 64)).symm
  unfold unsigned
  rw [ReportBody.toBytes_of, hzeros]
  simp only [List.append_assoc]

/-- **All other bytes are zero.** -/
theorem getElem?_unsigned {i : Nat} (hi : i < 436) (hversion : 2 ≤ i)
    (hmeasurement : i < 112 ∨ 144 ≤ i) (hreportData : i < 368 ∨ 432 ≤ i) :
    (unsigned v (.of m d))[i]? = some 0 := by
  have hm := m.length_toBytes
  have hd := d.length_toBytes
  have hv := Bytes.length_littleEndian 2 v.toNat
  rw [unsigned_of]
  by_cases h₁ : i < 112
  · rw [List.append_assoc, List.append_assoc, List.append_assoc]
    exact Bytes.getElem?_zeros _ _ (by omega) (by omega)
  by_cases h₂ : i < 368
  · have hlength : (Bytes.littleEndian 2 v.toNat ++ List.replicate 110 0 ++ m.toBytes).length
        = 144 := by
      rw [List.length_append, List.length_append, hv, List.length_replicate, hm]
    rw [List.append_assoc _ d.toBytes]
    exact Bytes.getElem?_zeros _ _ (by omega) (by omega)
  · have hlength : (Bytes.littleEndian 2 v.toNat ++ List.replicate 110 0 ++ m.toBytes
        ++ List.replicate 224 0 ++ d.toBytes).length = 432 := by
      rw [List.length_append, List.length_append, List.length_append, List.length_append, hv,
        List.length_replicate, hm, List.length_replicate, hd]
    rw [← List.append_nil (_ ++ List.replicate 4 0)]
    exact Bytes.getElem?_zeros _ _ (by omega) (by omega)

end Written

/-! ## What is read -/

/-- What is read is the byte string itself. -/
theorem parse_eq_ok_iff {b : Bytes} {q : Quote} : parse b = .ok q ↔ Sized b ∧ q.bytes = b := by
  constructor
  · intro h
    by_cases hs : Sized b
    · rw [parse_of_sized hs] at h
      cases h
      exact ⟨hs, rfl⟩
    · rw [parse_of_not_sized hs] at h
      cases h
  · rintro ⟨hs, rfl⟩
    exact parse_of_sized hs

/-- **The version is what stands in the first two bytes.** -/
theorem version_eq_iff {q q' : Quote} :
    q.version = q'.version ↔ q.bytes.slice 0 2 = q'.bytes.slice 0 2 := by
  have hlength : (q.bytes.slice 0 2).length = (q'.bytes.slice 0 2).length := by
    have h := q.minSize
    have h' := q'.minSize
    rw [Bytes.length_slice, Bytes.length_slice]
    omega
  rw [← UInt16.toNat_inj, toNat_version, toNat_version]
  exact Bytes.ofLittleEndian_inj hlength

/-- **The measurement is what stands at 112 to 144.** -/
theorem measurement_eq_iff {q q' : Quote} :
    q.measurement = q'.measurement ↔ q.bytes.slice 112 144 = q'.bytes.slice 112 144 := by
  rw [← Measurement.toBytes_inj, toBytes_measurement, toBytes_measurement]

/-- **The report data is what stands at 368 to 432.** -/
theorem reportData_eq_iff {q q' : Quote} :
    q.reportData = q'.reportData ↔ q.bytes.slice 368 432 = q'.bytes.slice 368 432 := by
  rw [← ReportData.toBytes_inj, toBytes_reportData, toBytes_reportData]

/-- **What an accessor reads stands in front of the signature.** -/
theorem fields_eq_of_take (q q' : Quote) (h : q.bytes.take 432 = q'.bytes.take 432) :
    q.version = q'.version ∧ q.measurement = q'.measurement ∧ q.reportData = q'.reportData := by
  have hslice (start : Nat) {stop : Nat} (hstop : stop ≤ 432) :
      q.bytes.slice start stop = q'.bytes.slice start stop := by
    rw [← Bytes.slice_take q.bytes hstop, h, Bytes.slice_take q'.bytes hstop]
  rw [version_eq_iff, measurement_eq_iff, reportData_eq_iff]
  exact ⟨hslice 0 (by decide), hslice 112 (by decide), hslice 368 (by decide)⟩

/-- Without an own quote of the right size there is nothing to decide. -/
theorem matching_of_not_sized_own (data : ReportData) {received own : Bytes}
    (h : Sized received) (ho : ¬ Sized own) :
    matching data received own = .error (.malformedQuote (sizeFault own)) := by
  unfold matching
  rw [parse_of_sized h, parse_of_not_sized ho]
  rfl

section Signature

variable {r r' : Bytes} (hs : Sized r) (hs' : Sized r') (h : r.take 432 = r'.take 432)
include hs hs' h

/-- **The decision on a received quote** does not depend on its signature, nor
does the measurement that it comes to. -/
theorem map_measurement_matching_congr (data : ReportData) (own : Bytes) :
    (matching data r own).map measurement = (matching data r' own).map measurement := by
  by_cases ho : Sized own
  case neg => rw [matching_of_not_sized_own data hs ho, matching_of_not_sized_own data hs' ho]
  obtain ⟨hversion, hmeasurement, hreportData⟩ :=
    fields_eq_of_take ⟨r, hs.1, hs.2⟩ ⟨r', hs'.1, hs'.2⟩ h
  rw [matching_of_sized data hs ho, matching_of_sized data hs' ho]
  dsimp only
  rw [hversion, hreportData]
  split
  · rfl
  split
  · rfl
  split
  · rfl
  · exact congrArg Except.ok hmeasurement

/-- **The decision against an own quote** does not depend on the signature of
this one. -/
theorem matching_congr_own (data : ReportData) (received : Bytes) :
    matching data received r = matching data received r' := by
  by_cases ht : Sized received
  case neg =>
    unfold matching
    rw [parse_of_not_sized ht]
    rfl
  obtain ⟨hversion, -, hreportData⟩ :=
    fields_eq_of_take ⟨r, hs.1, hs.2⟩ ⟨r', hs'.1, hs'.2⟩ h
  rw [matching_of_sized data ht hs, matching_of_sized data ht hs']
  dsimp only
  rw [hversion, hreportData]

end Signature

/-! ## Both together -/

/-- **A quote without signature that was written** from a version, a measurement
and report data. -/
structure Written (v : UInt16) (m : Measurement) (d : ReportData) : Prop where
  /-- A header, a body, and the length of an empty signature. -/
  length : (unsigned v (.of m d)).length = 436
  /-- It is read as what it was written from. -/
  parse : ∃ q, parse (unsigned v (.of m d)) = .ok q ∧ q.version = v ∧ q.measurement = m
    ∧ q.reportData = d ∧ q.body = .of m d ∧ q.bytes = unsigned v (.of m d)
  /-- Outside of the three fields there is nothing in it. -/
  zeros : ∀ i < 436, 2 ≤ i → i < 112 ∨ 144 ≤ i → i < 368 ∨ 432 ≤ i →
    (unsigned v (.of m d))[i]? = some 0

/-- **A byte string that is read as a quote**, if it can be. -/
structure ReadInPlace (r : Bytes) : Prop where
  /-- Its length alone decides whether it can. -/
  parse_iff : (∃ q, parse r = .ok q) ↔ 432 ≤ r.length ∧ r.length ≤ 8192
  /-- Every accessor finds all the bytes of its range. -/
  accessors : ∀ q, parse r = .ok q → q.bytes = r
    ∧ ((r.slice 0 2).length = 2 ∧ q.version.toNat = Bytes.ofLittleEndian (r.slice 0 2))
    ∧ ((r.slice 48 432).length = 384 ∧ q.body.toBytes = r.slice 48 432)
    ∧ ((r.slice 112 144).length = 32 ∧ q.measurement.toBytes = r.slice 112 144)
    ∧ ((r.slice 368 432).length = 64 ∧ q.reportData.toBytes = r.slice 368 432)
  /-- A byte that is overwritten by another one changes the field in whose range
  it lies, and no other. -/
  overwritten : ∀ q, parse r = .ok q → ∀ (i : Nat) (hi : i < r.length) (x : UInt8),
    ∃ q', parse (r.set i x) = .ok q'
      ∧ (q'.version ≠ q.version ↔ i < 2 ∧ x ≠ r[i])
      ∧ (q'.measurement ≠ q.measurement ↔ (112 ≤ i ∧ i < 144) ∧ x ≠ r[i])
      ∧ (q'.reportData ≠ q.reportData ↔ (368 ≤ i ∧ i < 432) ∧ x ≠ r[i])
  /-- Whatever stands behind the body, and however much, the local decision is
  the same, for a received quote as for an own one. -/
  signature : ∀ q, parse r = .ok q → ∀ r' q', parse r' = .ok q' → r.take 432 = r'.take 432 →
    ∀ (data : ReportData) (other : Bytes),
      (matching data r other).map measurement = (matching data r' other).map measurement
        ∧ matching data other r = matching data other r'

/-- What is written is read again. -/
theorem written (v : UInt16) (m : Measurement) (d : ReportData) : Written v m d where
  length := length_unsigned v _
  parse := by
    have hs := sized_unsigned v (.of m d)
    refine ⟨_, parse_of_sized hs, ?_, ?_, ?_, ?_, rfl⟩
    · rw [← UInt16.toNat_inj, toNat_version]
      exact versionIn_unsigned v _
    · rw [← Measurement.toBytes_inj, toBytes_measurement]
      exact slice_unsigned_measurement v m d
    · rw [← ReportData.toBytes_inj, toBytes_reportData]
      exact slice_unsigned_reportData v m d
    · rw [← ReportBody.toBytes_inj, toBytes_body]
      exact slice_unsigned_body v _
  zeros _ hi hversion hmeasurement hreportData :=
    getElem?_unsigned v m d hi hversion hmeasurement hreportData

/-- What is read is read in its place. -/
theorem readInPlace (r : Bytes) : ReadInPlace r where
  parse_iff := by
    constructor
    · rintro ⟨q, h⟩
      exact (parse_eq_ok_iff.mp h).1
    · intro h
      exact ⟨_, parse_of_sized h⟩
  accessors q h := by
    obtain ⟨hs, rfl⟩ := parse_eq_ok_iff.mp h
    have hlength {start stop : Nat} (hstop : stop ≤ 432) :
        (q.bytes.slice start stop).length = stop - start := by
      have := q.minSize
      rw [Bytes.length_slice]
      omega
    exact ⟨rfl, ⟨hlength (by decide), toNat_version q⟩, ⟨hlength (by decide), toBytes_body q⟩,
      ⟨hlength (by decide), toBytes_measurement q⟩, hlength (by decide), toBytes_reportData q⟩
  overwritten q h i hi x := by
    obtain ⟨hs, rfl⟩ := parse_eq_ok_iff.mp h
    have hset : Sized (q.bytes.set i x) := by
      unfold Sized
      rwa [List.length_set]
    refine ⟨_, parse_of_sized hset, ?_, ?_, ?_⟩
    · rw [Ne, version_eq_iff]
      simpa using Bytes.slice_set_ne_iff hi x 0 2
    · rw [Ne, measurement_eq_iff]
      exact Bytes.slice_set_ne_iff hi x 112 144
    · rw [Ne, reportData_eq_iff]
      exact Bytes.slice_set_ne_iff hi x 368 432
  signature q h r' q' h' htake data other := by
    have hs := (parse_eq_ok_iff.mp h).1
    have hs' := (parse_eq_ok_iff.mp h').1
    exact ⟨map_measurement_matching_congr hs hs' htake data other,
      matching_congr_own hs hs' htake data other⟩

/-- **The codec of quotes**: what is written is read again, and every byte string
is read in its place. -/
theorem codec :
    (∀ (v : UInt16) (m : Measurement) (d : ReportData), Written v m d)
      ∧ ∀ r : Bytes, ReadInPlace r :=
  ⟨written, readInPlace⟩

end Quote

end Enclave
