import Enclave.Proofs.Attestation.Decision

/-!
# When the remote verifier is consulted

Verifications over all sorts of channels are made one after the other, and share
a remote verifier that keeps a record of the quotes it is shown. The record is a
part of the world that no channel touches, so that it tells which verifications
came as far as the remote verifier.

A verification comes that far if it would be accepted by a verifier that trusts
every quote (`Attempt.Passes`), and otherwise something speaks against its quote
that has nothing to do with the verifier (`Attempt.Fails`). One verification adds
its quote to the record in the first case and nothing in the second
(`VerifyCall.run_eq`), and the record of a whole run is that of its
verifications.
-/

namespace Enclave

variable {σ : Type}

/-- An action on the world beside the record. -/
def besideRecord {β : Type} (x : StateM σ β) : StateM (σ × List Bytes) β := fun w =>
  ((x w.1).1, (x w.1).2, w.2)

/-- An action on the record. -/
def onRecord {β : Type} (x : StateM (List Bytes) β) : StateM (σ × List Bytes) β := fun w =>
  ((x w.2).1, w.1, (x w.2).2)

theorem actsOn_besideRecord (record : List Bytes) :
    ActsOn (besideRecord (σ := σ)) fun w => (w, record) :=
  fun _ _ => rfl

/-- **A verification**: a channel, and what is to be verified over it. -/
structure VerifyCall (σ : Type) where
  /-- The channel of the party that verifies. -/
  channel : Channel (StateM σ)
  /-- The user data that the quote is to bind. -/
  userData : Bytes
  /-- The quote that was received. -/
  received : Bytes

/-- **A verification by a remote verifier with a record.** -/
def VerifyCall.run (status : Int) (c : VerifyCall σ) :
    ExceptT Error (StateM (σ × List Bytes)) Measurement :=
  (c.channel.lift besideRecord).verify c.userData c.received
    ((RemoteVerifier.recorder status).lift onRecord)

/-- **Verifications, one after the other.** -/
def VerifyCall.runAll (status : Int) (calls : List (VerifyCall σ)) :
    StateM (σ × List Bytes) (List (Except Error Measurement)) :=
  calls.mapM fun c => (c.run status).run

/-- **A verification and the world it is made in.** -/
structure Attempt (σ : Type) extends VerifyCall σ where
  /-- The world at its start. -/
  world : σ

namespace Attempt

/-- What the verification is told from outside, where the remote verifier trusts
every quote. -/
def testimony (a : Attempt σ) : Testimony :=
  a.channel.testimony a.userData a.received (.mock 0) a.world

/-- **Nothing but the remote verifier could speak against the quote.** -/
def Passes (a : Attempt σ) : Prop :=
  Testimony.Accepted a.userData a.received a.testimony

/-- **Something else speaks against the quote**, with the error that it gives. -/
def Fails (a : Attempt σ) (e : Error) : Prop :=
  Testimony.Refused a.userData a.received a.testimony e

end Attempt

/-- **The verifications of a run with their worlds.** A verification leaves the
world as the quote of its own enclave does. -/
def VerifyCall.attempts : List (VerifyCall σ) → σ → List (Attempt σ)
  | [], _ => []
  | c :: calls, w =>
    ⟨c, w⟩ :: attempts calls (worldAfter (c.channel.quote (.ofClaims c.userData)) w)

/-- The quote that a decision lets pass is the received one. -/
theorem Quote.bytes_of_matching {userData received own : Bytes} {quote : Quote}
    (h : matching (.ofClaims userData) received own = .ok quote) : quote.bytes = received := by
  rcases matches_or_mismatch userData received own with hm | ⟨e, hm⟩
  · rw [matching_of_matches hm] at h
    cases h
    rfl
  · rw [matching_of_mismatch hm] at h
    cases h

/-- What verifying leaves behind: what the session for the own quote leaves, and
then the remote verifier, if it is asked. -/
theorem Channel.worldAfter_verify (ch : Channel (StateM σ)) (userData received : Bytes)
    (remote : RemoteVerifier (StateM σ)) (w : σ) :
    worldAfter (ch.verify userData received remote) w
      = match answerOf (ch.quote (.ofClaims userData)) w with
        | .error _ => worldAfter (ch.quote (.ofClaims userData)) w
        | .ok own =>
          match Quote.matching (.ofClaims userData) received own with
          | .error _ => worldAfter (ch.quote (.ofClaims userData)) w
          | .ok quote =>
            worldAfter (remote.check quote.bytes)
              (worldAfter (ch.quote (.ofClaims userData)) w) := by
  unfold verify
  rw [worldAfter_bind]
  cases answerOf (ch.quote (.ofClaims userData)) w with
  | error e => rfl
  | ok own =>
    dsimp only
    rw [worldAfter_bind, answerOf_liftExcept, worldAfter_liftExcept]
    cases Quote.matching (.ofClaims userData) received own with
    | error e => rfl
    | ok quote =>
      dsimp only
      rw [worldAfter_bind]
      cases answerOf (remote.check quote.bytes)
        (worldAfter (ch.quote (.ofClaims userData)) w) <;> rfl

/-- The verifier with a record answers by its status. -/
theorem answerOf_check_recorder (status : Int) (quote : Bytes) (w : σ) (record : List Bytes) :
    answerOf (((RemoteVerifier.recorder status).lift onRecord).check quote) (w, record)
      = if status = 0 then .ok () else .error (.pluginRejected "mock" status) := by
  show answerOf ((RemoteVerifier.recorder status).check quote) record = _
  unfold RemoteVerifier.recorder
  rw [answerOf_bind]
  exact answerOf_liftExcept _ _

/-- **It records every quote it is shown**, whatever its status is. -/
theorem worldAfter_check_recorder (status : Int) (quote : Bytes) (w : σ) (record : List Bytes) :
    worldAfter (((RemoteVerifier.recorder status).lift onRecord).check quote) (w, record)
      = (w, record ++ [quote]) := by
  show (w, worldAfter ((RemoteVerifier.recorder status).check quote) record) = _
  unfold RemoteVerifier.recorder
  rw [worldAfter_bind]
  exact congrArg (Prod.mk w) (worldAfter_liftExcept _ _)

namespace VerifyCall

/-- **One verification**: where a verifier that trusts every quote accepts, the
quote is recorded and the status decides, and where not, nothing is recorded. -/
theorem run_eq (status : Int) (c : VerifyCall σ) (w : σ) (record : List Bytes) :
    StateT.run (c.run status).run (w, record)
      = match answerOf (c.channel.verify c.userData c.received (.mock 0)) w with
        | .ok m => (if status = 0 then .ok m else .error (.pluginRejected "mock" status),
            worldAfter (c.channel.quote (.ofClaims c.userData)) w, record ++ [c.received])
        | .error e =>
          (.error e, worldAfter (c.channel.quote (.ofClaims c.userData)) w, record) := by
  have hanswer : answerOf ((c.channel.lift besideRecord).quote (.ofClaims c.userData)) (w, record)
      = answerOf (c.channel.quote (.ofClaims c.userData)) w :=
    Channel.answerOf_bindAndRead_lift _ _ _ _ w (actsOn_besideRecord record)
  have hworld : worldAfter ((c.channel.lift besideRecord).quote (.ofClaims c.userData)) (w, record)
      = (worldAfter (c.channel.quote (.ofClaims c.userData)) w, record) :=
    Channel.worldAfter_bindAndRead_lift _ _ _ _ w (actsOn_besideRecord record)
  show (answerOf (c.run status) (w, record), worldAfter (c.run status) (w, record)) = _
  unfold run
  rw [Channel.answerOf_verify, Channel.worldAfter_verify, Channel.answerOf_verify c.channel,
    hanswer, hworld]
  cases answerOf (c.channel.quote (.ofClaims c.userData)) w with
  | error e => rfl
  | ok own =>
    dsimp only
    cases hmatching : Quote.matching (.ofClaims c.userData) c.received own with
    | error e => rfl
    | ok quote =>
      have htrust : answerOf ((RemoteVerifier.mock 0 : RemoteVerifier (StateM σ)).check c.received)
          (worldAfter (c.channel.quote (.ofClaims c.userData)) w) = .ok () :=
        answerOf_liftExcept _ _
      dsimp only
      rw [answerOf_check_recorder, worldAfter_check_recorder, Quote.bytes_of_matching hmatching,
        htrust]
      by_cases hstatus : status = 0 <;> simp only [hstatus, ↓reduceIte]

/-- The first of some verifications, and then the others. -/
theorem run_runAll_cons (status : Int) (c : VerifyCall σ) (calls : List (VerifyCall σ))
    (w : σ × List Bytes) :
    StateT.run (runAll status (c :: calls)) w
      = ((StateT.run (c.run status).run w).1
          :: (StateT.run (runAll status calls) (StateT.run (c.run status).run w).2).1,
        (StateT.run (runAll status calls) (StateT.run (c.run status).run w).2).2) := by
  unfold runAll
  rw [List.mapM_cons]
  rfl

open Classical in
/-- **The remote verifier is consulted exactly where the local checks pass.** Over
a run of verifications that share a verifier with a record, the record grows by
the received quotes of those that pass, in order. One that passes is accepted
with the measurement in its quote if the status is zero, and rejected with the
status if not. Any other fails with an error that does not depend on the
status. -/
theorem runAll_recorder (status : Int) (calls : List (VerifyCall σ)) (w : σ)
    (record : List Bytes) :
    let out := StateT.run (runAll status calls) (w, record)
    out.2.2 = record ++ ((attempts calls w).filter fun a => a.Passes).map (·.received)
      ∧ List.Forall₂ (fun a answer =>
          (a.Passes → ∃ m : Measurement, m.toBytes = a.received.slice 112 144
            ∧ answer = if status = 0 then .ok m else .error (.pluginRejected "mock" status))
          ∧ (¬ a.Passes → ∃ e, a.Fails e ∧ answer = .error e))
        (attempts calls w) out.1 := by
  induction calls generalizing w record with
  | nil => exact ⟨(List.append_nil _).symm, .nil⟩
  | cons c calls ih =>
    intro out
    have hout : out = StateT.run (runAll status (c :: calls)) (w, record) := rfl
    rw [run_runAll_cons, run_eq] at hout
    rw [attempts]
    rcases Testimony.accepted_or_refused c.userData c.received (Attempt.testimony ⟨c, w⟩)
      with h | ⟨e, h⟩
    · obtain ⟨m, hm, hslice⟩ := Channel.answerOf_verify_of_accepted h
      obtain ⟨hrecord, hanswers⟩ := ih (worldAfter (c.channel.quote (.ofClaims c.userData)) w)
        (record ++ [c.received])
      have hpasses : Attempt.Passes ⟨c, w⟩ := h
      rw [hm] at hout
      rw [hout, List.filter_cons_of_pos (by simpa using hpasses)]
      refine ⟨?_, .cons ⟨fun _ => ⟨m, hslice, rfl⟩, fun hnot => absurd hpasses hnot⟩ hanswers⟩
      rw [hrecord, List.append_assoc]
      rfl
    · have he := Channel.answerOf_verify_of_refused h
      obtain ⟨hrecord, hanswers⟩ :=
        ih (worldAfter (c.channel.quote (.ofClaims c.userData)) w) record
      have hfails : ¬ Attempt.Passes ⟨c, w⟩ := by
        intro hpasses
        obtain ⟨m, hm, -⟩ := Channel.answerOf_verify_of_accepted hpasses
        cases he.symm.trans hm
      rw [he] at hout
      rw [hout, List.filter_cons_of_neg (by simpa using hfails)]
      exact ⟨hrecord, .cons ⟨fun hpasses => absurd hpasses hfails, fun _ => ⟨e, h, rfl⟩⟩ hanswers⟩

end VerifyCall

end Enclave
