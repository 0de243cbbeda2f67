import Enclave.Proofs.Channel.ScriptedSession
import Enclave.Proofs.Session

/-!
# What a derived key depends on

A sealing key has to stay the same for as long as there is data sealed under it,
while the report that it is derived from changes with every session. Here it is
said what of a report matters: a request for a key consists of constants and of
the 32 bytes of the key id (`KeyRequest.toBytes_forBytes`), so that two requests
are the same exactly if the two reports agree in these bytes.

To speak of the requests, they are kept in a log. The log is a part of the world
that no channel touches, and keeping it changes neither the key nor anything
else (`Derivation.answerOf_logged`).
-/

namespace Enclave

variable {σ : Type}

/-! ## A log of requests -/

/-- An action on the world beside a log of requests. -/
def besideRequests {β : Type} (x : StateM σ β) : StateM (σ × List KeyRequest) β := fun w =>
  ((x w.1).1, (x w.1).2, w.2)

theorem actsOn_besideRequests (requests : List KeyRequest) :
    ActsOn (besideRequests (σ := σ)) fun w => (w, requests) :=
  fun _ _ => rfl

/-- **A requester that keeps the requests** it is given. -/
def KeyRequester.logged (keys : KeyRequester (StateM σ)) :
    KeyRequester (StateM (σ × List KeyRequest)) where
  getKey request w :=
    ((keys.getKey request w.1).1, (keys.getKey request w.1).2, w.2 ++ [request])

/-- **The requests for the bytes of a report**: one, if they have the size of a
report, and else none. -/
def KeyRequest.madeFor (raw : Bytes) : List KeyRequest :=
  if raw.length = 432 then [forBytes raw] else []

namespace KeyRequester

variable (keys : KeyRequester (StateM σ)) (raw : Bytes) (w : σ) (requests : List KeyRequest)

/-- A requester answers what it answers without a log. -/
theorem answerOf_keyFor_logged :
    answerOf (keys.logged.keyFor raw) (w, requests) = answerOf (keys.keyFor raw) w := by
  unfold keyFor
  split <;> rfl

/-- **The log grows by what is requested.** -/
theorem worldAfter_keyFor_logged :
    worldAfter (keys.logged.keyFor raw) (w, requests)
      = (worldAfter (keys.keyFor raw) w, requests ++ KeyRequest.madeFor raw) := by
  unfold keyFor KeyRequest.madeFor
  split
  · rfl
  · rw [List.append_nil]
    rfl

/-- A report brings a key, and anything else an error of the channel. -/
theorem answerOf_keyFor :
    answerOf (keys.keyFor raw) w
      = if raw.length = 432 then .ok (keys.getKey (.forBytes raw) w).1
        else .error (.shortTransfer .read "report" 432 raw.length) := by
  unfold keyFor
  split <;> rfl

end KeyRequester

/-! ## What a request says -/

namespace KeyRequest

/-- The bytes of a request in front of the key id: the sealing class, the policy
of the measurement, no security versions, and the full masks for flags and
extended features. -/
def beforeKeyId : Bytes :=
  [4, 0, 1, 0] ++ List.replicate 20 0 ++ List.replicate 8 0xff
    ++ [0x1b, 0xff, 0xf9, 0xff, 0xff, 0xff, 0xff, 0xff]

/-- The bytes of a request behind the key id: the full mask for miscellaneous
features, and zeros. -/
def afterKeyId : Bytes := List.replicate 4 0xff ++ List.replicate 436 0

/-- **A request says nothing but the key id** of the report it is for. -/
theorem toBytes_forReport (r : Report) :
    (forReport r).toBytes = beforeKeyId ++ r.keyId.toList ++ afterKeyId := by
  have hbefore : Bytes.littleEndian 2 sealClass.toNat
      ++ Bytes.littleEndian 2 measurementPolicy.toNat ++ Bytes.littleEndian 2 (0 : UInt16).toNat
      ++ List.replicate 2 0 ++ (Vector.replicate 16 0).toList
      ++ Bytes.littleEndian 8 allFlags.toNat ++ Bytes.littleEndian 8 allFeatures.toNat
      = beforeKeyId := by decide
  have hafter : Bytes.littleEndian 4 allMisc.toNat ++ Bytes.littleEndian 2 (0 : UInt16).toNat
      ++ List.replicate 434 0 = afterKeyId := rfl
  unfold toBytes
  rw [← hbefore, ← hafter]
  simp only [List.append_assoc]
  rfl

/-- The key id of a report is what stands at bytes 384 to 416. -/
theorem toBytes_forBytes {raw : Bytes} (h : raw.length = 432) :
    (forBytes raw).toBytes = beforeKeyId ++ raw.slice 384 416 ++ afterKeyId := by
  unfold forBytes
  rw [toBytes_forReport, Bytes.toList_window (by omega)]

/-- **Requests are the same exactly if the key ids are.** -/
theorem toBytes_forBytes_inj {raw raw' : Bytes} (h : raw.length = 432) (h' : raw'.length = 432) :
    (forBytes raw).toBytes = (forBytes raw').toBytes ↔ raw.slice 384 416 = raw'.slice 384 416 := by
  rw [toBytes_forBytes h, toBytes_forBytes h', List.append_left_inj, List.append_right_inj]

end KeyRequest

/-! ## Derivations -/

/-- **A key derivation and the world it is made in.** -/
structure Derivation (σ : Type) where
  /-- The channel that the report comes from. -/
  channel : Channel (StateM σ)
  /-- The key derivation of the processor. -/
  requester : KeyRequester (StateM σ)
  /-- The measurement that is bound. -/
  identity : Measurement
  /-- The world at its start, which is what all that happened before has left. -/
  world : σ

namespace Derivation

variable (d : Derivation σ)

/-- **The report that is read**, or why there is none. -/
def report : Except Error Bytes :=
  answerOf (d.channel.bindAndRead (.ofMeasurement d.identity) .report 432) d.world

/-- **The answer of the derivation.** -/
def answer : Except Error SealKey :=
  answerOf (deriveKey d.channel d.requester d.identity) d.world

/-- **The derivation with a requester that keeps the requests.** -/
def logged : ExceptT Error (StateM (σ × List KeyRequest)) SealKey :=
  deriveKey (d.channel.lift besideRequests) d.requester.logged d.identity

/-- **The requests that reach the requester**, in order. -/
def requests : List KeyRequest := (worldAfter d.logged (d.world, [])).2

/-- **What is answered**: the failure of the session, or what becomes of the bytes
that were read. -/
theorem answer_eq :
    d.answer
      = match d.report with
        | .ok raw => answerOf (d.requester.keyFor raw)
            (worldAfter (d.channel.bindAndRead (.ofMeasurement d.identity) .report 432) d.world)
        | .error e => .error e := by
  unfold answer report
  rw [deriveKey_eq, answerOf_bind]
  cases answerOf (d.channel.bindAndRead (.ofMeasurement d.identity) .report 432) d.world <;> rfl

/-- A session beside the log brings the same report, and leaves the log alone. -/
theorem session_besideRequests (requests : List KeyRequest) :
    answerOf ((d.channel.lift besideRequests).bindAndRead (.ofMeasurement d.identity) .report 432)
        (d.world, requests) = d.report
      ∧ worldAfter ((d.channel.lift besideRequests).bindAndRead (.ofMeasurement d.identity)
          .report 432) (d.world, requests)
        = (worldAfter (d.channel.bindAndRead (.ofMeasurement d.identity) .report 432) d.world,
          requests) := by
  have hanswer := Channel.answerOf_bindAndRead_lift d.channel (.ofMeasurement d.identity) .report
    432 d.world (actsOn_besideRequests requests)
  have hworld := Channel.worldAfter_bindAndRead_lift d.channel (.ofMeasurement d.identity) .report
    432 d.world (actsOn_besideRequests requests)
  unfold report
  rw [hanswer, hworld]
  exact ⟨rfl, rfl⟩

/-- **A log changes nothing**: neither the answer nor the world. -/
theorem answerOf_logged (requests : List KeyRequest) :
    answerOf d.logged (d.world, requests) = d.answer := by
  obtain ⟨hsession, hworld⟩ := d.session_besideRequests requests
  rw [answer_eq]
  unfold logged
  rw [deriveKey_eq, answerOf_bind, hsession, hworld]
  cases d.report with
  | error e => rfl
  | ok raw => exact d.requester.answerOf_keyFor_logged raw _ requests

/-- **What is requested**: a key for the report that was read, if it has the size
of one. -/
theorem requests_eq :
    d.requests
      = match d.report with
        | .ok raw => KeyRequest.madeFor raw
        | .error _ => [] := by
  obtain ⟨hsession, hworld⟩ := d.session_besideRequests []
  unfold requests logged
  rw [deriveKey_eq, worldAfter_bind, hsession, hworld]
  cases d.report with
  | error e => rfl
  | ok raw =>
    dsimp only
    rw [d.requester.worldAfter_keyFor_logged]
    rfl

/-- Whatever reaches the requester is for a report that was read. -/
theorem report_of_mem_requests {r : KeyRequest} (h : r ∈ d.requests) :
    ∃ raw, d.report = .ok raw ∧ raw.length = 432 ∧ r = .forBytes raw := by
  rw [requests_eq] at h
  cases hreport : d.report with
  | error e =>
    rw [hreport] at h
    cases h
  | ok raw =>
    rw [hreport] at h
    dsimp only [KeyRequest.madeFor] at h
    split at h
    case isFalse => cases h
    case isTrue hlen => exact ⟨raw, rfl, hlen, List.mem_singleton.mp h⟩

/-- **A key depends on the report only through its key id.** Of two derivations,
over any channels and after any histories, that reach their requesters, the
requests are the same 512 bytes exactly if the reports that were read agree in
bytes 384 to 416.

Each reaches its requester once if the bytes read have the size of a report, with
a request for the sealing class under the policy of the measurement and with
full masks, and then there is a key. Bytes of any other size are a short
transfer, and nothing is requested. That the requests are kept makes no
difference to the answer. -/
theorem requests_eq_iff_keyId :
    (∀ (σ τ : Type) (d : Derivation σ) (d' : Derivation τ), ∀ r ∈ d.requests, ∀ r' ∈ d'.requests,
        ∃ raw raw', d.report = .ok raw ∧ d'.report = .ok raw'
          ∧ r.toBytes.length = 512 ∧ r'.toBytes.length = 512
          ∧ (r.toBytes = r'.toBytes ↔ raw.slice 384 416 = raw'.slice 384 416))
      ∧ (∀ (σ : Type) (d : Derivation σ) (raw : Bytes), d.report = .ok raw →
        (raw.length = 432 → ∃ (r : KeyRequest) (key : SealKey), d.requests = [r]
          ∧ d.answer = .ok key
          ∧ r.keyName = 4 ∧ r.keyPolicy = 1 ∧ r.flags = 0xffffffffffffffff
          ∧ r.xfrm = 0xfffffffffff9ff1b ∧ r.miscMask = 0xffffffff
          ∧ r.toBytes = KeyRequest.beforeKeyId ++ raw.slice 384 416 ++ KeyRequest.afterKeyId)
        ∧ (raw.length ≠ 432 → d.requests = []
          ∧ d.answer = .error (.shortTransfer .read "report" 432 raw.length)))
      ∧ (∀ (σ : Type) (d : Derivation σ) (e : Error), d.report = .error e →
        d.requests = [] ∧ d.answer = .error e)
      ∧ ∀ (σ : Type) (d : Derivation σ), answerOf d.logged (d.world, []) = d.answer := by
  refine ⟨?_, ?_, ?_, fun σ d => d.answerOf_logged []⟩
  · intro σ τ d d' r hr r' hr'
    obtain ⟨raw, hreport, hlen, rfl⟩ := d.report_of_mem_requests hr
    obtain ⟨raw', hreport', hlen', rfl⟩ := d'.report_of_mem_requests hr'
    exact ⟨raw, raw', hreport, hreport', KeyRequest.length_toBytes _, KeyRequest.length_toBytes _,
      KeyRequest.toBytes_forBytes_inj hlen hlen'⟩
  · intro σ d raw hreport
    rw [requests_eq, answer_eq, hreport]
    dsimp only
    rw [KeyRequester.answerOf_keyFor]
    unfold KeyRequest.madeFor
    refine ⟨fun hlen => ?_, fun hlen => ?_⟩
    · rw [if_pos hlen, if_pos hlen]
      exact ⟨_, _, rfl, rfl, rfl, rfl, rfl, rfl, rfl, KeyRequest.toBytes_forBytes hlen⟩
    · rw [if_neg hlen, if_neg hlen]
      exact ⟨rfl, rfl⟩
  · intro σ d e hreport
    rw [requests_eq, answer_eq, hreport]
    exact ⟨rfl, rfl⟩

/-- A derivation over a channel whose script has one report. -/
def ofReport (raw : Bytes) (identity : Measurement) : Derivation Script where
  channel := Script.channel
  requester := .mock identity
  identity := identity
  world := { writes := [], reads := [.ok raw] }

theorem report_ofReport (raw : Bytes) (identity : Measurement) :
    (ofReport raw identity).report = .ok raw := by
  unfold report ofReport
  rw [Script.answerOf_bindAndRead]
  rfl

/-- Two reports that agree in nothing but the key id, and one byte too few. -/
theorem requests_eq_iff_keyId_scripted :
    let report (n : UInt8) : Bytes :=
      List.replicate 384 n ++ List.replicate 32 7 ++ List.replicate 16 n
    (∃ r r', (ofReport (report 0) .zero).requests = [r]
        ∧ (ofReport (report 1) ⟨Vector.replicate 32 1⟩).requests = [r']
        ∧ r.toBytes = r'.toBytes)
      ∧ (ofReport ((report 0).take 431) .zero).answer
        = .error (.shortTransfer .read "report" 432 431) := by
  intro report
  have hlen (n : UInt8) : (report n).length = 432 := by
    simp only [report, List.length_append, List.length_replicate]
  have hkeyId (n : UInt8) : (report n).slice 384 416 = List.replicate 32 7 := by
    have h := Bytes.slice_append (List.replicate 384 n) (List.replicate 32 7)
      (List.replicate 16 n)
    rwa [List.length_replicate, List.length_replicate] at h
  obtain ⟨r, -, hr, -⟩ := (requests_eq_iff_keyId.2.1 Script (ofReport (report 0) .zero) (report 0)
    (report_ofReport _ _)).1 (hlen 0)
  obtain ⟨r', -, hr', -⟩ := (requests_eq_iff_keyId.2.1 Script
    (ofReport (report 1) ⟨Vector.replicate 32 1⟩) (report 1) (report_ofReport _ _)).1 (hlen 1)
  obtain ⟨raw, raw', hraw, hraw', -, -, hiff⟩ := requests_eq_iff_keyId.1 Script Script
    (ofReport (report 0) .zero) (ofReport (report 1) ⟨Vector.replicate 32 1⟩)
    r (hr ▸ List.mem_singleton_self r) r' (hr' ▸ List.mem_singleton_self r')
  rw [report_ofReport] at hraw hraw'
  cases hraw
  cases hraw'
  have hshort : ((report 0).take 431).length = 431 := by
    rw [List.length_take, hlen]
    rfl
  have hanswer := ((requests_eq_iff_keyId.2.1 Script (ofReport ((report 0).take 431) .zero) _
    (report_ofReport _ _)).2 (by omega)).2
  rw [hshort] at hanswer
  exact ⟨⟨r, r', hr, hr', hiff.mpr ((hkeyId 0).trans (hkeyId 1).symm)⟩, hanswer⟩

end Derivation

end Enclave
