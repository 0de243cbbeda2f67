import Enclave.Channel.Scripted
import Enclave.Proofs.Sealing.Operations

/-!
# Sealing and unsealing are inverse to each other

Two sealers that derive the same key, whatever their channels, requesters and
histories are, understand each other: what one of them seals the other
unseals, up to its own limit on payloads (`Sealer.unsealAs_sealAs`).

The converse is what protects from blobs that nobody sealed. Every byte
string that is unsealed, wherever it comes from, is the sealed form of its
plaintext, byte by byte (`Sealer.sealAs_unsealAs`). A layout that carries no
nonce has therefore one blob for each plaintext and key.

Both follow from one equivalence, `Sealer.answerOf_unsealAs_eq_ok_iff`: for a
given key, a byte string is unsealed to a plaintext exactly if it is the bytes
of an encryption of that plaintext, of a size within the limits.
-/

namespace Enclave.Sealer

variable {σ τ : Type}

/-- Sealing with a key at hand and a plaintext within the limits. -/
theorem answerOf_sealAs_of_le {s : Sealer (StateM σ)} {w : σ} {key : SealKey}
    (hkey : answerOf s.key w = .ok key) (layout : Layout) {plaintext : Bytes}
    (h : plaintext.length ≤ s.maxPayload) (h' : plaintext.length ≤ Blob.maxLength) :
    answerOf (s.sealAs layout plaintext) w
      = .ok (Blob.encrypt key (s.drawn layout w) plaintext).toBytes := by
  rw [answerOf_sealAs, checkCapacity_of_le h h', hkey]

/-- Unsealing with a key at hand what is framed as a blob and within the
limit: the tag decides. -/
theorem answerOf_unsealAs_of_wellFramed {s : Sealer (StateM σ)} {w : σ} {key : SealKey}
    (hkey : answerOf s.key w = .ok key) {layout : Layout} {data : Bytes}
    (hframed : Blob.WellFramed layout data) (h : Blob.declared data ≤ s.maxPayload) :
    answerOf (s.unsealAs layout data) w
      = match (Blob.parts layout data).decrypt key with
        | some plaintext => .ok plaintext
        | none => .error .authenticationFailure := by
  have hlen := Blob.length_ciphertext_parts hframed
  rw [answerOf_unsealAs, Blob.parse_of_wellFramed hframed]
  dsimp only
  rw [hlen, checkCapacity_of_le h (Blob.declared_le data)]
  cases hdecrypt : (Blob.parts layout data).decrypt key with
  | none => simp only [hkey, hdecrypt]
  | some p => simp only [hkey, hdecrypt]

/-- **When a byte string is unsealed**: it is framed as a blob, the length in
it is within the limit, and its parts are decrypted. -/
theorem answerOf_unsealAs_eq_ok_iff_parts {s : Sealer (StateM σ)} {w : σ} {key : SealKey}
    (hkey : answerOf s.key w = .ok key) {layout : Layout} {data plaintext : Bytes} :
    answerOf (s.unsealAs layout data) w = .ok plaintext
      ↔ Blob.WellFramed layout data ∧ Blob.declared data ≤ s.maxPayload
        ∧ (Blob.parts layout data).decrypt key = some plaintext := by
  by_cases hframed : Blob.WellFramed layout data
  case neg =>
    obtain ⟨fault, hparse⟩ := Blob.parse_of_not_wellFramed hframed
    rw [answerOf_unsealAs, hparse]
    exact ⟨nofun, fun h => absurd h.1 hframed⟩
  by_cases hle : Blob.declared data ≤ s.maxPayload
  case neg =>
    rw [answerOf_unsealAs, Blob.parse_of_wellFramed hframed]
    dsimp only
    rw [Blob.length_ciphertext_parts hframed, checkCapacity_of_lt (Nat.not_le.mp hle)]
    exact ⟨nofun, fun h => absurd h.2.1 hle⟩
  rw [answerOf_unsealAs_of_wellFramed hkey hframed hle]
  cases (Blob.parts layout data).decrypt key with
  | none => exact ⟨nofun, fun h => absurd h.2.2 nofun⟩
  | some p =>
    exact ⟨fun h => ⟨hframed, hle, congrArg some (Except.ok.inj h)⟩,
      fun h => congrArg Except.ok (Option.some.inj h.2.2)⟩

/-- **What is unsealed under a key**: the bytes of the encryptions of the
plaintext that are within the limits, and nothing else. -/
theorem answerOf_unsealAs_eq_ok_iff {s : Sealer (StateM σ)} {w : σ} {key : SealKey}
    (hkey : answerOf s.key w = .ok key) {layout : Layout} {data plaintext : Bytes} :
    answerOf (s.unsealAs layout data) w = .ok plaintext
      ↔ plaintext.length ≤ s.maxPayload ∧ plaintext.length ≤ Blob.maxLength
        ∧ ∃ blob : Blob, blob.layout = layout ∧ blob.toBytes = data
          ∧ Blob.encrypt key blob.nonce plaintext = blob := by
  rw [answerOf_unsealAs_eq_ok_iff_parts hkey]
  constructor
  · rintro ⟨hframed, hle, hdecrypt⟩
    have henc := Blob.decrypt_eq_some_iff.mp hdecrypt
    have hlen : plaintext.length = Blob.declared data := by
      rw [← Blob.length_ciphertext_parts hframed, ← henc, Blob.length_ciphertext_encrypt]
    refine ⟨hlen ▸ hle, hlen ▸ Blob.declared_le data, Blob.parts layout data, ?_, ?_, henc⟩
    · exact Blob.layout_parts layout data
    · exact Blob.toBytes_parts hframed
  · rintro ⟨h, h', blob, rfl, rfl, henc⟩
    have hlen : blob.ciphertext.length = plaintext.length := by
      rw [← henc, Blob.length_ciphertext_encrypt]
    rw [Blob.declared_toBytes (hlen ▸ h'), Blob.parts_toBytes, Blob.decrypt_eq_some_iff, hlen]
    exact ⟨Blob.wellFramed_toBytes (hlen ▸ h'), h, henc⟩

/-! ## The round trip -/

/-- **What one sealer seals, another one with the same key unseals.** Within
the limit of the first and the reach of the length field, sealing succeeds
with 20 or 36 bytes more than the plaintext has, the first four of which state
its length; the second sealer answers the plaintext, or the error that it
exceeds its own limit. Beyond either bound, sealing answers the bound, so that
the length field never states a wrong length. -/
theorem unsealAs_sealAs (s : Sealer (StateM σ)) (t : Sealer (StateM τ)) (layout : Layout)
    (plaintext : Bytes) (w : σ) (v : τ) :
    (∀ key : SealKey, answerOf s.key w = .ok key → answerOf t.key v = .ok key →
        plaintext.length ≤ s.maxPayload → plaintext.length < 2 ^ 32 →
        ∃ sealed : Bytes, answerOf (s.sealAs layout plaintext) w = .ok sealed
          ∧ sealed.length = (match layout with | .legacy => 20 | .nonced => 36) + plaintext.length
          ∧ Bytes.ofLittleEndian (sealed.take 4) = plaintext.length
          ∧ answerOf (t.unsealAs layout sealed) v
            = if plaintext.length ≤ t.maxPayload then .ok plaintext
              else .error (.payloadTooLarge plaintext.length t.maxPayload))
      ∧ (s.maxPayload < plaintext.length →
        answerOf (s.sealAs layout plaintext) w
          = .error (.payloadTooLarge plaintext.length s.maxPayload))
      ∧ (plaintext.length ≤ s.maxPayload → 2 ^ 32 ≤ plaintext.length →
        answerOf (s.sealAs layout plaintext) w
          = .error (.payloadTooLarge plaintext.length (2 ^ 32 - 1))) := by
  refine ⟨fun key hs ht h h₃₂ => ?_, fun h => ?_, fun h h₃₂ => ?_⟩
  · have hmax : plaintext.length ≤ Blob.maxLength := Nat.le_of_lt_succ h₃₂
    -- from here on, it does not matter how the blob came about
    generalize hb : Blob.encrypt key (s.drawn layout w) plaintext = blob
    have hlayout : blob.layout = layout := by rw [← hb, layout_encrypt_drawn]
    have hlen : blob.ciphertext.length = plaintext.length := by
      rw [← hb, Blob.length_ciphertext_encrypt]
    refine ⟨blob.toBytes, ?_, ?_, ?_, ?_⟩
    · rw [answerOf_sealAs_of_le hs layout h hmax, hb]
    · rw [Blob.length_toBytes, hlayout, hlen]
      cases layout <;> rfl
    · rw [← hlen]
      exact Blob.declared_toBytes (hlen ▸ hmax)
    · by_cases hle : plaintext.length ≤ t.maxPayload
      · rw [if_pos hle, answerOf_unsealAs_eq_ok_iff ht]
        refine ⟨hle, hmax, blob, hlayout, rfl, ?_⟩
        rw [← hb, Blob.nonce_encrypt]
      · rw [if_neg hle, answerOf_unsealAs, ← hlayout, Blob.parse_toBytes (hlen ▸ hmax)]
        dsimp only
        rw [hlen, checkCapacity_of_lt (Nat.not_le.mp hle)]
  · rw [answerOf_sealAs, checkCapacity_of_lt h]
  · rw [answerOf_sealAs, checkCapacity_of_maxLength_lt h h₃₂]
    rfl

/-- **A sealer with a given key**, a given nonce and a given limit, over a
channel that follows a script. -/
def keyed (key : SealKey) (nonce : Block) (limit : Nat) : Sealer (StateM Script) where
  channel := Script.channel
  requester := ⟨fun _ => pure key⟩
  freshNonce := pure nonce
  measurement := .zero
  maxPayload := limit

/-- The script in which every write is taken and one report of zeros can be
read. -/
def oneReport : Script where
  writes := []
  reads := [.ok (List.replicate 432 0)]

/-- One report is enough for one key. -/
theorem answerOf_key_keyed (key : SealKey) (nonce : Block) (limit : Nat) :
    answerOf (keyed key nonce limit).key oneReport = .ok key := by
  have hlen : (List.replicate 432 (0 : UInt8)).length = 432 := List.length_replicate
  have hread : answerOf (Script.channel.bindAndRead (.ofMeasurement .zero) .report 432) oneReport
      = .ok (List.replicate 432 0) := by
    rw [Channel.answerOf_bindAndRead, Channel.answerOf_exchange]
    show (if (ReportData.ofMeasurement .zero).toBytes.length = 64 then _ else _) = _
    rw [ReportData.length_toBytes]
    rfl
  show answerOf (deriveKey Script.channel _ .zero) oneReport = _
  unfold deriveKey
  rw [answerOf_bind, hread]
  dsimp only
  rw [if_pos hlen, answerOf_bind, answerOf_liftExcept, Report.parse_of_length hlen]
  rfl

/-- Three bytes that are sealed and unsealed, three bytes over the limit, and
one byte more than the length field can state. -/
theorem unsealAs_sealAs_keyed :
    (∃ sealed : Bytes,
        answerOf ((keyed ⟨.zero⟩ .zero 3).sealAs .nonced [1, 2, 3]) oneReport = .ok sealed
          ∧ answerOf ((keyed ⟨.zero⟩ .zero 7).unsealAs .nonced sealed) oneReport
            = .ok [1, 2, 3])
      ∧ answerOf ((keyed ⟨.zero⟩ .zero 2).sealAs .legacy [1, 2, 3]) oneReport
          = .error (.payloadTooLarge 3 2)
      ∧ answerOf ((keyed ⟨.zero⟩ .zero (2 ^ 32)).sealAs .legacy (List.replicate (2 ^ 32) 0))
          oneReport = .error (.payloadTooLarge (2 ^ 32) (2 ^ 32 - 1)) := by
  have hlen : (List.replicate (2 ^ 32) (0 : UInt8)).length = 2 ^ 32 := List.length_replicate
  have hlong := (unsealAs_sealAs (keyed ⟨.zero⟩ .zero (2 ^ 32)) (keyed ⟨.zero⟩ .zero (2 ^ 32))
    .legacy (List.replicate (2 ^ 32) 0) oneReport oneReport).2.2 (Nat.le_of_eq hlen)
    (Nat.le_of_eq hlen.symm)
  rw [hlen] at hlong
  refine ⟨?_, ?_, hlong⟩
  · obtain ⟨sealed, hseal, _, _, hunseal⟩ := (unsealAs_sealAs (keyed ⟨.zero⟩ .zero 3)
      (keyed ⟨.zero⟩ .zero 7) .nonced [1, 2, 3] oneReport oneReport).1 ⟨.zero⟩
      (answerOf_key_keyed _ _ _) (answerOf_key_keyed _ _ _) (by decide) (by decide)
    exact ⟨sealed, hseal, hunseal.trans (if_pos (by decide))⟩
  · exact (unsealAs_sealAs (keyed ⟨.zero⟩ .zero 2) (keyed ⟨.zero⟩ .zero 2) .legacy [1, 2, 3]
      oneReport oneReport).2.1 (by decide)

/-! ## Nothing else is unsealed -/

/-- **The nonce of a blob stands behind its length field**: a sealer that draws
the bytes found there encrypts with the nonce of the blob. -/
theorem drawn_eq_nonce {s : Sealer (StateM σ)} {w : σ} {blob : Blob}
    (h : blob.layout = .nonced →
      (s.freshNonce (worldAfter s.key w)).1.toList = blob.toBytes.slice 4 20) :
    s.drawn blob.layout w = blob.nonce := by
  have hn : blob.nonce = (Blob.parts blob.layout blob.toBytes).nonce :=
    congrArg Blob.nonce (Blob.parts_toBytes blob).symm
  have hlen := Blob.length_toBytes blob
  rw [hn]
  cases hl : blob.layout with
  | legacy => rfl
  | nonced =>
    rw [hl] at hlen
    dsimp only [Layout.headerSize] at hlen
    refine congrArg some (Vector.toList_inj.mp ?_)
    rw [h hl, Bytes.toList_window (by omega)]

/-- **What is unsealed is the sealed form of its plaintext.** It is within the
limit, so that sealing it again is possible. Any sealer with the same key and a sufficient limit, and in the nonced layout a sealer that
draws the nonce in bytes 4 to 20, seals the plaintext to the very same bytes;
one that draws that nonce always exists, so that nothing outside the image of
sealing is accepted. Without a nonce in the layout, no two byte strings are
unsealed to the same plaintext under one key. -/
theorem sealAs_unsealAs (s : Sealer (StateM σ)) (layout : Layout) (data plaintext : Bytes) (w : σ)
    (key : SealKey) (hkey : answerOf s.key w = .ok key)
    (h : answerOf (s.unsealAs layout data) w = .ok plaintext) :
    plaintext.length ≤ s.maxPayload
      ∧ (∀ (τ : Type) (t : Sealer (StateM τ)) (v : τ), answerOf t.key v = .ok key →
        plaintext.length ≤ t.maxPayload →
        (layout = .nonced → (t.freshNonce (worldAfter t.key v)).1.toList = data.slice 4 20) →
        answerOf (t.sealAs layout plaintext) v = .ok data)
      ∧ (∃ nonce : Block,
        answerOf (({ s with freshNonce := pure nonce } : Sealer (StateM σ)).sealAs layout plaintext)
          w = .ok data)
      ∧ (layout = .legacy → ∀ (τ : Type) (t : Sealer (StateM τ)) (v : τ) (data' : Bytes),
        answerOf t.key v = .ok key →
        answerOf (t.unsealAs .legacy data') v = .ok plaintext → data' = data) := by
  obtain ⟨hpayload, hmax, blob, rfl, rfl, henc⟩ := (answerOf_unsealAs_eq_ok_iff hkey).mp h
  have hseal : ∀ (τ : Type) (t : Sealer (StateM τ)) (v : τ), answerOf t.key v = .ok key →
      plaintext.length ≤ t.maxPayload →
      (blob.layout = .nonced →
        (t.freshNonce (worldAfter t.key v)).1.toList = blob.toBytes.slice 4 20) →
      answerOf (t.sealAs blob.layout plaintext) v = .ok blob.toBytes := by
    intro τ t v ht hle hnonce
    rw [answerOf_sealAs_of_le ht _ hle hmax, drawn_eq_nonce hnonce, henc]
  refine ⟨hpayload, hseal, ⟨Bytes.window 16 4 blob.toBytes, ?_⟩,
    fun hl τ t v data' ht h' => ?_⟩
  · have hkey' : answerOf
        ({ s with freshNonce := pure (Bytes.window 16 4 blob.toBytes) } : Sealer (StateM σ)).key w
        = .ok key := by
      unfold Sealer.key at hkey ⊢
      exact hkey
    refine hseal σ { s with freshNonce := pure (Bytes.window 16 4 blob.toBytes) } w hkey' hpayload
      (fun hl => ?_)
    have hlen := Blob.length_toBytes blob
    rw [hl] at hlen
    dsimp only [Layout.headerSize] at hlen
    exact Bytes.toList_window (by omega)
  · -- without a nonce, the blob is a function of key and plaintext
    obtain ⟨_, _, blob', hl', rfl, henc'⟩ := (answerOf_unsealAs_eq_ok_iff ht).mp h'
    rw [← henc', ← henc, Blob.nonce_eq_none hl, Blob.nonce_eq_none hl']

/-- A sealer unseals the bytes of an encryption. -/
theorem answerOf_unsealAs_keyed (key : SealKey) (nonce : Block) :
    answerOf ((keyed key nonce 3).unsealAs .nonced
      (Blob.encrypt key (some nonce) [1, 2, 3]).toBytes) oneReport = .ok [1, 2, 3] :=
  (answerOf_unsealAs_eq_ok_iff (answerOf_key_keyed _ _ _)).mpr
    ⟨Nat.le_refl 3, by decide, Blob.encrypt key (some nonce) [1, 2, 3], rfl, rfl, rfl⟩

/-- Three bytes that were unsealed are sealed to what they were unsealed
from. -/
theorem sealAs_unsealAs_keyed :
    answerOf ((keyed ⟨.zero⟩ .zero 3).sealAs .nonced [1, 2, 3]) oneReport
      = .ok (Blob.encrypt ⟨.zero⟩ (some .zero) [1, 2, 3]).toBytes := by
  have hnonce : (Blob.encrypt ⟨.zero⟩ (some .zero) [1, 2, 3]).toBytes.slice 4 20
      = Block.zero.toList := rfl
  exact (sealAs_unsealAs (keyed ⟨.zero⟩ .zero 3) .nonced _ [1, 2, 3] oneReport ⟨.zero⟩
    (answerOf_key_keyed _ _ _) (answerOf_unsealAs_keyed _ _)).2.1 Script (keyed ⟨.zero⟩ .zero 3)
    oneReport (answerOf_key_keyed _ _ _) (by decide) (fun _ => hnonce.symm)

end Enclave.Sealer
