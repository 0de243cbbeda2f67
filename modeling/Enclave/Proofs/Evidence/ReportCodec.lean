import Enclave.Evidence.Report
import Enclave.Proofs.Fields

/-!
# Writing and reading reports

A report is three parts in a row, and their sizes add up to that of the report.
So a byte string of this size is cut into the parts without a gap
(`Report.toBytes_of_parse`), and no part of it can reach beyond its end: the size
is the only thing that reading can find fault with (`Report.parse_eq_error_iff`).
-/

namespace Enclave

namespace Report

variable {b : Bytes} {r : Report}

/-- **The bytes of a report are read as the report.** -/
theorem parse_toBytes (r : Report) : parse r.toBytes = .ok r := by
  obtain ⟨⟨body⟩, keyId, mac⟩ := r
  have hbody := Bytes.window_append [] body (keyId.toList ++ mac.toList)
  have hkeyId := Bytes.window_append body.toList keyId mac.toList
  have hmac := Bytes.window_append (body.toList ++ keyId.toList) mac []
  rw [List.nil_append, ← List.append_assoc] at hbody
  rw [Vector.length_toList] at hkeyId
  rw [List.length_append, Vector.length_toList, Vector.length_toList, List.append_nil] at hmac
  rw [parse_of_length (length_toBytes _)]
  show Except.ok (Report.mk ⟨Bytes.window 384 0 (body.toList ++ keyId.toList ++ mac.toList)⟩
    (Bytes.window 32 384 (body.toList ++ keyId.toList ++ mac.toList))
    (Bytes.window 16 416 (body.toList ++ keyId.toList ++ mac.toList))) = _
  rw [hkeyId, hmac]
  exact congrArg (fun v => Except.ok (Report.mk ⟨v⟩ keyId mac)) hbody

/-- **Byte strings of one length are read as reports**, and no others. -/
theorem exists_parse_eq_ok_iff : (∃ r, parse b = .ok r) ↔ b.length = 432 := by
  by_cases hlen : b.length = 432
  · exact iff_of_true ⟨_, parse_of_length hlen⟩ hlen
  · rw [parse_of_length_ne hlen]
    exact iff_of_false (fun h => nomatch h) hlen

/-- **What was read as a report is written again.** -/
theorem toBytes_of_parse (h : parse b = .ok r) : r.toBytes = b := by
  have hlen : b.length = 432 := exists_parse_eq_ok_iff.mp ⟨r, h⟩
  rw [parse_of_length hlen] at h
  rw [← Except.ok.inj h]
  unfold toBytes ReportBody.toBytes
  dsimp only
  rw [Bytes.toList_window (by omega), Bytes.toList_window (by omega),
    Bytes.toList_window (by omega)]
  -- the three ranges follow each other
  calc b.slice 0 384 ++ b.slice 384 416 ++ b.slice 416 432
      = b.take 432 := by
        rw [Bytes.slice_zero, Bytes.take_append_slice b (by decide),
          Bytes.take_append_slice b (by decide)]
    _ = b := List.take_of_length_le (Nat.le_of_eq hlen)

/-- **Reading a report fails for its size**, and for nothing else. -/
theorem parse_eq_error_iff {e : Error} :
    parse b = .error e ↔ b.length ≠ 432 ∧ e = .malformedQuote (.reportSize b.length) := by
  by_cases hlen : b.length = 432
  · rw [parse_of_length hlen]
    exact iff_of_false nofun fun h => h.1 hlen
  · rw [parse_of_length_ne hlen, Except.error.injEq, eq_comm]
    exact (and_iff_right hlen).symm

/-- That a part of a report does not lie within its bytes never comes up. -/
theorem parse_ne_reportLayout (b : Bytes) : parse b ≠ .error (.malformedQuote .reportLayout) := by
  intro h
  cases (parse_eq_error_iff.mp h).2

end Report

end Enclave
