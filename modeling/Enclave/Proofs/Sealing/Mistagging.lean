import Enclave.Proofs.Attestation.Decision
import Enclave.Proofs.Failure
import Enclave.Proofs.Sealing.Operations
import Enclave.Proofs.Session

/-!
# What counts as tampering

A blob that is unsealed with evidence of tampering must have a wrong tag, and a
blob with a wrong tag must be unsealed with evidence of tampering; anything less
would cry wolf, or not at all. `Sealer.Mistagged` says of sealed data that its tag
is not the one of its ciphertext.

What comes before the tag is looked at fails in other ways: the framing, the
limit, and the derivation of the key. The last one is a matter of the channel, whose
failures are passed on as they are. So unsealing reports tampering where a tag is
wrong, and else only where a channel itself answers so
(`Sealer.isTampering_unsealAs_iff`). No other operation looks at a tag, so that none
of them reports tampering over a channel that does not.
-/

namespace Enclave

variable {σ : Type} {w : σ}

/-- **Deriving a key fails as a channel does.** -/
theorem Channel.Operational.deriveKey {ch : Channel (StateM σ)} (h : ch.Operational w)
    {keys : KeyRequester (StateM σ)} {identity : Measurement} {e : Error}
    (he : answerOf (deriveKey ch keys identity) w = .error e) : e ≠ .authenticationFailure := by
  rw [deriveKey_eq] at he
  rcases error_of_bind he with hsession | ⟨raw, -, hkey⟩
  · exact h _ _ _ _ hsession
  · unfold KeyRequester.keyFor at hkey
    split at hkey
    · rw [answerOf_lift] at hkey
      cases hkey
    · cases hkey
      exact nofun

/-- What cannot be read as a quote is malformed. -/
theorem Quote.kind_of_parse {b : Bytes} {e : Error} (h : parse b = .error e) :
    e.kind = .malformedQuote := by
  unfold parse at h
  split at h
  · cases h
    rfl
  · split at h <;> cases h
    rfl

/-- The decision on two quotes does not speak of tampering. -/
theorem Quote.Mismatch.isTampering {userData received own : Bytes} {e : Error}
    (h : Mismatch userData received own e) : e.isTampering = false := by
  cases h <;> rfl

namespace Sealer

/-- **Sealed data with a wrong tag**: it is framed as a blob with a ciphertext
within the limit, the key can be derived, and under this key and the nonce of the
layout the tag of the ciphertext is another one. -/
def Mistagged (s : Sealer (StateM σ)) (layout : Layout) (data : Bytes) (w : σ) : Prop :=
  Blob.WellFramed layout data ∧ Blob.declared data ≤ s.maxPayload
    ∧ ∃ key, answerOf s.key w = .ok key
      ∧ Gcm.tag (.ofKey key.bytes) (Blob.effectiveNonce key (Blob.parts layout data).nonce)
          (Blob.parts layout data).ciphertext
        ≠ (Blob.parts layout data).tag

/-- **Sealed data whose key is refused**: it is framed as a blob with a ciphertext within
the limit, and asking the channel for the key ends as if there were evidence of
tampering. -/
def Refused (s : Sealer (StateM σ)) (layout : Layout) (data : Bytes) (w : σ) : Prop :=
  Blob.WellFramed layout data ∧ Blob.declared data ≤ s.maxPayload
    ∧ answerOf s.key w = .error .authenticationFailure

/-- **Unsealing reports tampering exactly where a tag is wrong**, or where the channel
says so instead of giving a key. -/
theorem isTampering_unsealAs_iff (s : Sealer (StateM σ)) (layout : Layout) (data : Bytes)
    (w : σ) :
    (∃ e, answerOf (s.unsealAs layout data) w = .error e ∧ e.isTampering = true)
      ↔ s.Mistagged layout data w ∨ s.Refused layout data w := by
  -- another failure is no evidence of tampering
  have hother {e : Error} (he : e.isTampering = false) :
      ¬ ∃ e', (.error e : Except Error Bytes) = .error e' ∧ e'.isTampering = true := by
    rintro ⟨e', h, htampering⟩
    cases h
    rw [he] at htampering
    cases htampering
  rw [answerOf_unsealAs]
  by_cases hframed : Blob.WellFramed layout data
  case neg =>
    obtain ⟨fault, hparse⟩ := Blob.parse_of_not_wellFramed hframed
    rw [hparse]
    exact iff_of_false (hother rfl) fun h => hframed (h.elim (·.1) (·.1))
  rw [Blob.parse_of_wellFramed hframed]
  dsimp only
  rw [Blob.length_ciphertext_parts hframed]
  by_cases hlimit : Blob.declared data ≤ s.maxPayload
  case neg =>
    rw [checkCapacity_of_lt (Nat.not_le.mp hlimit)]
    exact iff_of_false (hother rfl) fun h => hlimit (h.elim (·.2.1) (·.2.1))
  rw [checkCapacity_of_le hlimit (Blob.declared_le data)]
  unfold Mistagged Refused
  cases hkey : answerOf s.key w with
  | error e =>
    dsimp only
    constructor
    · rintro ⟨_, he, htampering⟩
      cases he
      rw [(Error.isTampering_iff e).mp htampering]
      exact .inr ⟨hframed, hlimit, rfl⟩
    · rintro (⟨-, -, key, hok, -⟩ | ⟨-, -, he⟩)
      · cases hok
      · cases he
        exact ⟨_, rfl, rfl⟩
  | ok key =>
    dsimp only
    constructor
    · rintro ⟨e, he, -⟩
      cases hdecrypt : (Blob.parts layout data).decrypt key with
      | some plaintext =>
        rw [hdecrypt] at he
        cases he
      | none => exact .inl ⟨hframed, hlimit, key, rfl, Gcm.decrypt_eq_none_iff.mp hdecrypt⟩
    · rintro (⟨-, -, key', hok, htag⟩ | ⟨-, -, he⟩)
      · cases hok
        have hdecrypt : (Blob.parts layout data).decrypt key = none :=
          Gcm.decrypt_eq_none_iff.mpr htag
        rw [hdecrypt]
        exact ⟨_, rfl, rfl⟩
      · cases he

/-- Over an operational channel no key is refused in this way. -/
theorem not_refused {s : Sealer (StateM σ)} (hch : s.channel.Operational w) (layout : Layout)
    (data : Bytes) : ¬ s.Refused layout data w :=
  fun h => hch.deriveKey h.2.2 rfl

/-! ## The other operations -/

section Untampered

variable {s : Sealer (StateM σ)} {e : Error} (hch : s.channel.Operational w)
include hch

/-- Attesting fails as a channel does. -/
theorem isTampering_attest {claims : Bytes}
    (h : answerOf (Certifier.attest s claims) w = .error e) : e.isTampering = false :=
  Error.isTampering_of_ne (hch _ _ _ _ h)

/-- Sealing fails on its limits, or as a channel does. -/
theorem isTampering_sealAs {layout : Layout} {plaintext : Bytes}
    (h : answerOf (s.sealAs layout plaintext) w = .error e) : e.isTampering = false := by
  rw [answerOf_sealAs] at h
  split at h
  case h_1 e' hcapacity =>
    cases h
    unfold checkCapacity at hcapacity
    split at hcapacity
    · cases hcapacity
      rfl
    · split at hcapacity <;> cases hcapacity
      rfl
  case h_2 =>
    split at h
    case h_1 e' hkey =>
      cases h
      exact Error.isTampering_of_ne (hch.deriveKey hkey)
    case h_2 => cases h

/-- A measurement is not to be had as a channel fails, or as a quote is
unreadable. -/
theorem isTampering_measurement (h : answerOf s.channel.measurement w = .error e) :
    e.isTampering = false := by
  rcases error_of_bind h with hquote | ⟨raw, -, hrest⟩
  · exact Error.isTampering_of_ne (hch _ _ _ _ hquote)
  · rcases error_of_bind hrest with hparse | ⟨quote, -, hdone⟩
    · rw [answerOf_liftExcept] at hparse
      exact Error.isTampering_of_ne (Error.ne_of_kind (Quote.kind_of_parse hparse) nofun)
    · cases hdone

/-- Deriving a key fails as a channel does. -/
theorem isTampering_deriveKey {m : Measurement}
    (h : answerOf (deriveKey s.channel s.requester m) w = .error e) : e.isTampering = false :=
  Error.isTampering_of_ne (hch.deriveKey h)

/-- Verifying fails as a channel does, on one of the quotes, or as the remote
verifier does. -/
theorem isTampering_verify {userData received : Bytes} {remote : RemoteVerifier (StateM σ)}
    (hremote : remote.Operational)
    (h : answerOf (Certifier.verify s userData received remote) w = .error e) :
    e.isTampering = false := by
  rcases error_of_bind h with hquote | ⟨own, -, hrest⟩
  · exact Error.isTampering_of_ne (hch _ _ _ _ hquote)
  rcases error_of_bind hrest with hmatching | ⟨quote, -, hrest⟩
  · rw [answerOf_liftExcept] at hmatching
    rcases Quote.matches_or_mismatch userData received own with hm | ⟨e', hm⟩
    · rw [Quote.matching_of_matches hm] at hmatching
      cases hmatching
    · rw [Quote.matching_of_mismatch hm] at hmatching
      cases hmatching
      exact hm.isTampering
  rcases error_of_bind hrest with hcheck | ⟨_, -, hdone⟩
  · exact Error.isTampering_of_ne ((hremote _ _ _ hcheck).elim (Error.ne_of_kind · nofun)
      (Error.ne_of_kind · nofun))
  · cases hdone

end Untampered

end Sealer

/-- **A certifier that reports tampering exactly**, in some world. -/
structure Certifier.ReportsExactly (c : Certifier (StateM σ)) (w : σ) : Prop where
  /-- Unsealing reports it where a tag is wrong, and nowhere else. -/
  unsealAs : ∀ (layout : Layout) (data : Bytes),
    (∃ e, answerOf (c.unsealAs layout data) w = .error e ∧ e.isTampering = true)
      ↔ c.Mistagged layout data w
  /-- Attesting never does. -/
  attest : ∀ (claims : Bytes) (e : Error), answerOf (c.attest claims) w = .error e →
    e.isTampering = false
  /-- Sealing into either layout never does. -/
  sealAs : ∀ (layout : Layout) (plaintext : Bytes) (e : Error),
    answerOf (c.sealAs layout plaintext) w = .error e → e.isTampering = false
  /-- Asking for the measurement never does. -/
  measurement : ∀ e : Error, answerOf c.channel.measurement w = .error e → e.isTampering = false
  /-- Deriving a key never does. -/
  deriveKey : ∀ (m : Measurement) (e : Error),
    answerOf (deriveKey c.channel c.requester m) w = .error e → e.isTampering = false
  /-- Verifying never does, with a remote verifier that is operational. -/
  verify : ∀ (userData received : Bytes) (remote : RemoteVerifier (StateM σ)) (e : Error),
    remote.Operational → answerOf (c.verify userData received remote) w = .error e →
    e.isTampering = false

/-- **Over an operational channel tampering is reported exactly.** -/
theorem Channel.Operational.reportsExactly {c : Certifier (StateM σ)}
    (h : c.channel.Operational w) : c.ReportsExactly w where
  unsealAs layout data :=
    (Sealer.isTampering_unsealAs_iff c layout data w).trans
      (or_iff_left (Sealer.not_refused h layout data))
  attest _ _ he := Sealer.isTampering_attest h he
  sealAs _ _ _ he := Sealer.isTampering_sealAs h he
  measurement _ he := Sealer.isTampering_measurement h he
  deriveKey _ _ he := Sealer.isTampering_deriveKey h he
  verify _ _ _ _ hremote he := Sealer.isTampering_verify h hremote he

end Enclave
