import Enclave.Proofs.Channel.Request
import Enclave.Proofs.Channel.Serial
import Mathlib.Data.List.Forall2

/-!
# Sessions on a shared emulated enclave are isolated

Any number of callers make requests over clones of one emulated enclave, in any
interleaving of their steps. Requests are clients, and clients that share an
emulated enclave take turns, so that nothing of one caller reaches another:
every read comes right after the write of its own caller and brings evidence of
what was written there, and every request is answered as if there were no other
caller.
-/

namespace Enclave

namespace MockEnclave

/-- Whole evidence is read whole. -/
theorem answer_of_isEvidence (e : MockEnclave) {x : Exchange} (hx : x.IsEvidence) :
    e.answer x = e.render x.data x.file := by
  unfold answer
  refine List.take_of_length_le ?_
  rcases hx with ⟨hfile, hlimit⟩ | ⟨hfile, hlimit⟩
  · rw [hlimit]
    exact e.length_render_le x.data x.file
  · rw [hfile, hlimit]
    exact Nat.le_of_eq (Report.length_toBytes _)

end MockEnclave

/-! ## Requests -/

namespace Request

variable (r : Request MockEnclave)

/-- A request on an emulated enclave does not depend on what was held before. -/
theorem answerOf_run_eq (held held' : ReportData) :
    answerOf (r.run MockEnclave.channel) held = answerOf (r.run MockEnclave.channel) held' := by
  obtain ⟨p, -, hsteps⟩ := r.orderly_run
  have halone (held : ReportData) : answerOf (r.run MockEnclave.channel) held = p.alone := by
    rw [← p.perform_steps held, hsteps, ← r.performed_run]
    rfl
  rw [halone, halone]

/-- **A request that was done justice**: it was answered as if nobody else used
the enclave. A request to attest got a quote that binds its claims, and one to
verify did not fail for the enclave's own quote. -/
structure Honoured (answer : Except Error Product) : Prop where
  /-- The answer is that of the enclave in any state. -/
  alone : ∀ held, answer = answerOf (r.run MockEnclave.channel) held
  /-- The quote carries the digest of the claims. -/
  attested : ∀ claims, r.operation = .attest claims →
    ∃ quote, answer = .ok (.bytes quote) ∧ Quote.Binds quote claims
  /-- Only the remote verifier could say that the own quote does not carry the
  digest of the user data. -/
  verified : ∀ userData received name word, r.operation = .verify userData received name word →
    ∀ fault, fault.message = "local quote does not carry the user data hash" →
      answer = .error (.bindingMismatch fault) → word received = .error (.bindingMismatch fault)

/-- **On its own, every request is done justice.** -/
theorem honoured_answerOf_run (held : ReportData) :
    r.Honoured (answerOf (r.run MockEnclave.channel) held) where
  alone held' := r.answerOf_run_eq held held'
  attested claims hop := by
    refine ⟨r.channel.quote (.ofClaims claims), ?_,
      (r.channel.binds_quote_iff claims claims).mpr rfl⟩
    unfold run
    rw [hop, Operation.answerOf_run_attest]
    show Except.map _ (answerOf (r.channel.channel.attest claims) held) = _
    rw [(r.channel.quoting_channel held).answerOf_attest claims]
    rfl
  verified userData received name word hop fault hfault hanswer := by
    unfold run at hanswer
    rw [hop, Operation.answerOf_run_verify] at hanswer
    have hverify : answerOf (r.channel.channel.verify userData received (.ofVerdict name word)) held
        = .error (.bindingMismatch fault) := by
      change Except.map _ (answerOf (r.channel.channel.verify _ _ _) held) = _ at hanswer
      cases hm : answerOf (r.channel.channel.verify userData received (.ofVerdict name word)) held
      · rw [hm] at hanswer
        cases hanswer
        rfl
      · rw [hm] at hanswer
        cases hanswer
    rcases (r.channel.quoting_channel held).eq_of_answerOf_verify hverify with rfl | hword
    · exact absurd hfault (by decide)
    · rwa [RemoteVerifier.ofVerdict, answerOf_liftExcept] at hword

/-- Requests on an emulated enclave, one after the other, are answered as each
of them alone. -/
theorem runAll_eq_map (requests : List (Request MockEnclave)) (held : ReportData) :
    (StateT.run (runAll requests MockEnclave.channel) held).1
      = requests.map fun r => answerOf (r.run MockEnclave.channel) held := by
  induction requests generalizing held with
  | nil => rfl
  | cons r requests ih =>
    unfold runAll at ih ⊢
    rw [List.mapM_cons, List.map_cons, StateT.run_bind]
    show answerOf (r.run MockEnclave.channel) held :: (StateT.run (requests.mapM fun
      (r : Request MockEnclave) => (r.run MockEnclave.channel).run)
        (worldAfter (r.run MockEnclave.channel) held)).1 = _
    rw [ih]
    congr 1
    exact List.map_congr_left fun r _ => r.answerOf_run_eq _ _

end Request

/-! ## Reads -/

namespace Sharing

/-- **Every read is of the caller's own evidence**: right before it, its caller
opened the session and wrote report data, and what was read is the report or the
quote of an enclave that holds it. -/
def Isolated (log : List (Nat × ChannelStep)) : Prop :=
  ∀ before k file limit answer after, log = before ++ (k, .read file limit answer) :: after →
    ∃ earlier data, ∃ e : MockEnclave,
      before = earlier ++ [(k, .openSession), (k, .write .userReportData data.toBytes (.ok 64))]
        ∧ (file = .report ∨ file = .quote) ∧ answer = .ok (e.render data file)
        ∧ file.Embeds data (e.render data file)

/-- Whole sessions for evidence are isolated. -/
theorem isolated_flatMap_events {sessions : List (Session MockEnclave (Nat × ChannelStep))}
    (hdue : ∀ t ∈ sessions, t.IsEmulated) (hasks : ∀ t ∈ sessions, t.exchange.IsEvidence) :
    Isolated (sessions.flatMap Session.events) := by
  intro before k file limit answer after hlog
  induction sessions generalizing before with
  | nil => cases before <;> cases hlog
  | cons t sessions ih =>
    have ht := hasks t List.mem_cons_self
    rw [List.flatMap_cons, hdue t List.mem_cons_self] at hlog
    -- a session is four steps long, and its read is the third of them
    match before, hlog with
    | [], hlog => cases hlog
    | [_], hlog => cases hlog
    | [_, _], hlog =>
      cases hlog
      refine ⟨[], t.exchange.data, t.channel, rfl, ?_, ?_, t.channel.embeds_render _ _⟩
      · exact ht.elim (fun hx => .inr hx.1) (fun hx => .inl hx.1)
      · rw [t.channel.answer_of_isEvidence ht]
    | [_, _, _], hlog => cases hlog
    | a :: b :: c :: d :: before, hlog =>
      have hsplit : (t.channel.session t.caller t.exchange).events
          ++ sessions.flatMap Session.events
        = [a, b, c, d] ++ (before ++ (k, .read file limit answer) :: after) := hlog
      obtain ⟨earlier, data, e, hbefore, hread⟩ :=
        ih (fun t ht => hdue t (List.mem_cons_of_mem _ ht))
          (fun t ht => hasks t (List.mem_cons_of_mem _ ht)) before (List.append_inj hsplit rfl).2
      exact ⟨a :: b :: c :: d :: earlier, data, e, by rw [hbefore]; rfl, hread⟩

/-- So is any beginning of what is isolated. -/
theorem Isolated.of_isPrefix {log all : List (Nat × ChannelStep)} (h : Isolated all)
    (hlog : log <+: all) : Isolated log := by
  obtain ⟨tail, rfl⟩ := hlog
  intro before k file limit answer after hread
  exact h before k file limit answer (after ++ tail)
    (by rw [hread, List.append_assoc, List.cons_append])

/-- **Sessions on a shared emulated enclave are isolated.** Callers make requests
over clones of it, and take their steps in any order. Every read is of the
caller's own evidence, whoever is done was done justice in every request, and
from wherever the steps have led, everybody can still be done. -/
theorem run_requests_isolated (held : ReportData) (callers : List (List (Request MockEnclave)))
    (schedule : List Nat) :
    let s := (start held (callers.map fun requests =>
      Request.runAll requests Steps.channel)).run schedule
    Isolated s.log
      ∧ (∀ k requests answers, callers[k]? = some requests → s.result? k = some answers →
        List.Forall₂ Request.Honoured requests answers)
      ∧ ∃ more, ∀ k < callers.length, (s.run more).result? k ≠ none := by
  intro s
  choose client hasks hsteps using Request.exists_client (C := MockEnclave)
  have hstart : Serial (start held (callers.map fun requests =>
      Request.runAll requests Steps.channel)) [] (callers.map client) := by
    have hcallers : (callers.map client).map Client.steps
        = callers.map fun requests => Request.runAll requests Steps.channel := by
      rw [List.map_map]
      exact List.map_congr_left fun requests _ => hsteps requests
    rw [← hcallers]
    exact .start held _
  obtain ⟨sessions, clients, hs, turns⟩ := hstart.run .none schedule
  refine ⟨?_, fun k requests answers hk hresult => ?_, ?_⟩
  · obtain ⟨all, left, hall, hlog⟩ := hs.log_isPrefix turns
    refine (isolated_flatMap_events hall.due (hall.asks ?_).1).of_isPrefix hlog
    intro p hp
    obtain ⟨requests, -, rfl⟩ := List.mem_map.mp hp
    exact hasks requests
  · have halone : answers = (client requests).alone := by
      have hat := congrArg (·[k]?) turns.map_alone
      simpa only [List.getElem?_map, hs.done_of_result? hresult, hk, Option.map_some,
        Option.some.injEq, Client.alone] using hat
    have hanswers : answers = requests.map fun r => answerOf (r.run MockEnclave.channel) held := by
      rw [← Request.runAll_eq_map, ← Request.perform_runAll, ← hsteps, Client.perform_steps, halone]
    rw [hanswers, List.forall₂_map_right_iff]
    exact List.forall₂_same.mpr fun r _ => r.honoured_answerOf_run held
  · have hmore := hs.exists_run turns
    rwa [List.length_map] at hmore

end Sharing

end Enclave
