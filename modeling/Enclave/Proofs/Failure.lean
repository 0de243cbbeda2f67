import Enclave.Attestation.Collateral
import Enclave.Machine
import Enclave.Proofs.Channel.ScriptedSession

/-!
# Operational failures

Most failures say nothing about an attacker: a file that cannot be used, a
transfer that is too short, a library that is not there, a quote that a verifier
does not trust. `Channel.Operational` says of a channel that none of its failures is
evidence of tampering, and `RemoteVerifier.Operational` of a remote verifier that it
fails by rejecting a quote, or because something could not be loaded.

This is so for every channel and every remote verifier that there is: emulated
enclaves, directories of attestation files, and the verifiers `mock`, `dylib` and
`dcap`. A channel is operational in every world as soon as its single transfers are
(`Channel.operational_of_transfers`). Only a script can be told to fail with evidence
of tampering, and if it is not, its channel is operational as well.
-/

namespace Enclave

variable {σ α β : Type}

/-- **Where a failure comes from**: the first of two programs, or the second one
in the world that the first one leaves. -/
theorem error_of_bind {x : ExceptT Error (StateM σ) α} {f : α → ExceptT Error (StateM σ) β} {w : σ}
    {e : Error} (h : answerOf (x >>= f) w = .error e) :
    answerOf x w = .error e
      ∨ ∃ a, answerOf x w = .ok a ∧ answerOf (f a) (worldAfter x w) = .error e := by
  rw [answerOf_bind] at h
  cases hx : answerOf x w with
  | error e' =>
    rw [hx] at h
    cases h
    exact .inl rfl
  | ok a =>
    rw [hx] at h
    exact .inr ⟨a, rfl, h⟩

/-- What succeeds has succeeded in both of its parts. -/
theorem ok_of_bind {x : ExceptT Error (StateM σ) α} {f : α → ExceptT Error (StateM σ) β} {w : σ}
    {b : β} (h : answerOf (x >>= f) w = .ok b) :
    ∃ a, answerOf x w = .ok a ∧ answerOf (f a) (worldAfter x w) = .ok b := by
  rw [answerOf_bind] at h
  cases hx : answerOf x w with
  | error e =>
    rw [hx] at h
    cases h
  | ok a =>
    rw [hx] at h
    exact ⟨a, rfl, h⟩

/-- **Evidence of tampering is one kind of failure.** -/
theorem Error.isTampering_iff (e : Error) : e.isTampering = true ↔ e = .authenticationFailure := by
  cases e <;> simp only [isTampering, reduceCtorEq]

theorem Error.isTampering_of_ne {e : Error} (h : e ≠ .authenticationFailure) :
    e.isTampering = false := by
  rw [← Bool.not_eq_true, isTampering_iff]
  exact h

/-- A failure of another kind is none. -/
theorem Error.ne_of_kind {e : Error} {k : ErrorKind} (h : e.kind = k)
    (hk : k ≠ .authenticationFailure) : e ≠ .authenticationFailure := by
  rintro rfl
  exact hk h.symm

/-! ## Channels -/

/-- **A channel whose sessions never fail with evidence of tampering**, in some world.
They may fail in every other way. -/
def Channel.Operational (ch : Channel (StateM σ)) (w : σ) : Prop :=
  ∀ (data : ReportData) (file : AttestationFile) (limit : Nat) (e : Error),
    answerOf (ch.bindAndRead data file limit) w = .error e → e ≠ .authenticationFailure

/-- A session fails as its transfers do, or because one of them was too short. -/
theorem Channel.operational_of_transfers {ch : Channel (StateM σ)}
    (hwrite : ∀ (file : AttestationFile) (b : Bytes) (w : σ) (e : Error),
      answerOf (ch.write file b) w = .error e → e ≠ .authenticationFailure)
    (hread : ∀ (file : AttestationFile) (limit : Nat) (w : σ) (e : Error),
      answerOf (ch.read file limit) w = .error e → e ≠ .authenticationFailure) (w : σ) :
    ch.Operational w := by
  intro data file limit e h
  rw [answerOf_bindAndRead] at h
  rcases error_of_bind h with hfailed | ⟨n, -, hrest⟩
  · exact hwrite _ _ _ _ hfailed
  · split at hrest
    · exact hread _ _ _ _ hrest
    · cases hrest
      exact nofun

/-- **A channel stays operational in a larger world.** -/
theorem Channel.Operational.lift {τ : Type} {ch : Channel (StateM σ)} {s : σ}
    (h : ch.Operational s) {f : {γ : Type} → StateM σ γ → StateM τ γ} {place : σ → τ}
    (hf : ActsOn f place) : (ch.lift f).Operational (place s) := by
  intro data file limit e he
  rw [answerOf_bindAndRead_lift ch data file limit s hf] at he
  exact h data file limit e he

/-- A transfer with an emulated enclave fails only for a file that is not to be
written. -/
theorem MockEnclave.kind_of_accept {file : AttestationFile} {b : Bytes} {held : ReportData}
    {e : Error} (h : (accept file b held).1 = .error e) : e.kind = .channelUnavailable := by
  cases file with
  | userReportData =>
    unfold accept at h
    dsimp only at h
    split at h <;> cases h
  | report | quote =>
    cases h
    rfl

/-- **Emulated enclaves are operational**, on every machine. -/
theorem Machine.operational_enclaveChannel (e : MockEnclave) (i : Nat) (w : Machine) :
    (enclaveChannel e i).Operational w := by
  refine Channel.operational_of_transfers (fun file b w e h => ?_) (fun file limit w e h => ?_) w
  · exact Error.ne_of_kind (MockEnclave.kind_of_accept h) nofun
  · cases h

theorem PseudoFiles.kind_of_answer {α : Type} {path : String} {outcome : Outcome α} {e : Error}
    (h : answer path outcome = .error e) : e.kind = .channelUnavailable := by
  unfold answer at h
  split at h <;> cases h <;> rfl

/-- **Directories of attestation files are operational**, whatever is in them. -/
theorem Machine.operational_directoryChannel (p : PseudoFiles) (w : Machine) :
    (directoryChannel p).Operational w := by
  refine Channel.operational_of_transfers (fun file b w e h => ?_) (fun file limit w e h => ?_) w
  · have hanswer : PseudoFiles.answer (p.path file) (w.files.write (p.path file) b).1
        = .error e := h
    exact Error.ne_of_kind (PseudoFiles.kind_of_answer hanswer) nofun
  · have hanswer : PseudoFiles.answer (p.path file) (w.files.read (p.path file) limit).1
        = .error e := h
    exact Error.ne_of_kind (PseudoFiles.kind_of_answer hanswer) nofun

/-- **A script in which nothing fails with evidence of tampering.** -/
structure Script.Untampered (s : Script) : Prop where
  /-- No write does. -/
  writes : .error .authenticationFailure ∉ s.writes
  /-- No read does either. -/
  reads : .error .authenticationFailure ∉ s.reads

/-- **Scripts are operational** if nothing in them fails with evidence of tampering. -/
theorem Script.Untampered.operational {s : Script} (h : s.Untampered) :
    Script.channel.Operational s := by
  have hhead {α : Type} {answers : List (Except Error α)} {a : α} {e : Error}
      (he : answers.headD (.ok a) = .error e) : .error e ∈ answers := by
    cases answers with
    | nil => cases he
    | cons answer rest => exact he ▸ List.mem_cons_self
  intro data file limit e he
  rw [answerOf_bindAndRead, evidence] at he
  rintro rfl
  split at he
  case h_1 e' hwrite =>
    cases he
    exact h.writes (hhead hwrite)
  case h_2 n _ =>
    split at he
    · exact h.reads (hhead he)
    · cases he

/-! ## Hosts -/

/-- **A host whose channels are operational**, in every world. -/
structure Host.Operational (host : Host (StateM σ)) : Prop where
  /-- Those of emulated enclaves are. -/
  emulate : ∀ (e : MockEnclave) (w v : σ), (host.emulate e w).1.Operational v
  /-- Those of directories of attestation files are. -/
  pseudoFiles : ∀ (p : PseudoFiles) (v : σ), (host.pseudoFiles p).Operational v

/-- **Machines are such hosts.** -/
theorem Machine.operational_host : host.Operational where
  emulate e w v := operational_enclaveChannel e w.enclaves.length v
  pseudoFiles := operational_directoryChannel

/-- **The certifier that settings ask for** has an operational channel on such a
host. -/
theorem Host.Operational.channel_ofSettings {host : Host (StateM σ)} (h : host.Operational)
    {s : Settings} {w : σ} {c : Certifier (StateM σ)}
    (hc : answerOf (Certifier.ofSettings host s) w = .ok c) (v : σ) :
    c.channel.Operational v := by
  obtain ⟨_, -, hc⟩ := ok_of_bind hc
  split at hc
  -- in either mode, the measurement may be in a file
  · unfold Certifier.emulated at hc
    dsimp only at hc
    split at hc <;>
    · obtain ⟨measurement, -, hc⟩ := ok_of_bind hc
      obtain ⟨channel, hchannel, hc⟩ := ok_of_bind hc
      cases hchannel
      cases hc
      exact h.emulate _ _ v
  · unfold Certifier.hardware at hc
    dsimp only at hc
    split at hc <;>
    · obtain ⟨measurement, -, hc⟩ := ok_of_bind hc
      cases hc
      exact h.pseudoFiles _ v

/-! ## Remote verifiers -/

namespace RemoteVerifier

/-- **A remote verifier that fails by rejecting a quote**, or because something
could not be loaded. -/
def Operational (r : RemoteVerifier (StateM σ)) : Prop :=
  ∀ (quote : Bytes) (w : σ) (e : Error), answerOf (r.check quote) w = .error e →
    e.kind = .pluginRejected ∨ e.kind = .pluginLoadFailure

theorem kind_of_verdict {name : String} {status : Int} {e : Error}
    (h : verdict name status = .error e) : e.kind = .pluginRejected := by
  unfold verdict at h
  split at h <;> cases h
  rfl

/-- **Verifiers that answer a status are operational**, and so the mock
verifier and the one in a library. -/
theorem operational_ofStatus (name : String) (status : Bytes → Int) :
    (ofStatus name status : RemoteVerifier (StateM σ)).Operational := by
  intro quote w e h
  exact .inl (kind_of_verdict ((answerOf_liftExcept _ w).symm.trans h))

/-- The mock verifier that keeps a record is operational. -/
theorem operational_recorder (status : Int) : (recorder status).Operational := by
  intro quote w e h
  rcases error_of_bind h with hrecorded | ⟨_, -, hverdict⟩
  · cases hrecorded
  · rw [answerOf_liftExcept] at hverdict
    exact .inl (kind_of_verdict hverdict)

end RemoteVerifier

namespace PluginHost

variable {host : PluginHost (StateM σ)} {library symbol : String} {w : σ}

/-- **A verifier that was loaded from a library is operational.** -/
theorem operational_of_verifier {r : RemoteVerifier (StateM σ)}
    (h : answerOf (host.verifier library symbol) w = .ok r) : r.Operational := by
  unfold verifier at h
  rw [answerOf_bind, answerOf_lift] at h
  dsimp only at h
  split at h
  · cases h
    exact RemoteVerifier.operational_ofStatus library _
  · cases h

/-- What cannot be loaded says so. -/
theorem kind_of_verifier {e : Error} (h : answerOf (host.verifier library symbol) w = .error e) :
    e.kind = .pluginLoadFailure := by
  unfold verifier at h
  rw [answerOf_bind, answerOf_lift] at h
  dsimp only at h
  split at h <;> cases h
  rfl

end PluginHost

namespace RemoteVerifier

variable (service : CollateralService (StateM σ)) (address : String) (seconds : Nat)

/-- **What the verifier over a service answers**: the first of its steps that
fails, and else whether the quote is genuine. -/
theorem answerOf_check_dcap (quote : Bytes) (w : σ) :
    answerOf ((dcap service address seconds).check quote) w
      = match service.prepare w with
        | (.error detail, _) => .error (.pluginLoadFailure "dcap" (.loader detail))
        | (.ok (), prepared) =>
          match service.fetch address seconds quote prepared with
          | (none, _) => .error (.pluginRejected "dcap" noCollateral)
          | (some collateral, fetched) =>
            match (service.now fetched).1 with
            | none => .error (.pluginRejected "dcap" notGenuine)
            | some time =>
              if service.isGenuine quote collateral time then .ok ()
              else .error (.pluginRejected "dcap" notGenuine) := by
  unfold dcap
  rw [answerOf_bind, answerOf_lift, worldAfter_lift]
  rcases service.prepare w with ⟨_ | ⟨⟩, prepared⟩
  · rfl
  dsimp only
  rw [answerOf_bind, answerOf_lift, worldAfter_lift]
  rcases service.fetch address seconds quote prepared with ⟨_ | collateral, fetched⟩
  · rfl
  dsimp only
  rw [answerOf_bind, answerOf_lift]
  cases (service.now fetched).1 with
  | none => rfl
  | some time =>
    dsimp only
    split <;> rfl

/-- A service that takes three seconds is of use to somebody who waits for five. -/
example :
    let w : Machine := { services := [("pccs", fun _ => some (3, fun time => time < 100))] }
    answerOf ((dcap Machine.collateral "pccs" 5).check []) w = .ok ()
      ∧ answerOf ((dcap Machine.collateral "pccs" 2).check []) w
        = .error (.pluginRejected "dcap" noCollateral) :=
  ⟨rfl, rfl⟩

/-- **The verifier over a service is operational**, whatever the service brings. -/
theorem operational_dcap : (dcap service address seconds).Operational := by
  intro quote w e h
  rw [answerOf_check_dcap] at h
  split at h
  · cases h
    exact .inr rfl
  · refine .inl ?_
    split at h
    · cases h
      rfl
    · split at h
      · cases h
        rfl
      · split at h <;> cases h
        rfl

end RemoteVerifier

end Enclave
