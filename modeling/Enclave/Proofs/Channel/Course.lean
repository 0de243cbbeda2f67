import Enclave.Channel.Expiry

/-!
# The course of fenced sessions

What happens over directories of attestation files can be told without callers
and programs. A session is opened, and its caller waits until nothing is left of
earlier sessions. It writes, and either the write is answered or it is given up.
It may read, with the same alternative, and closes the session. All the while
transfers end, in whatever order they like. A `Course` is a log of that form.

The fence is the one condition that `Course.joined` has: that all transfers so
far have ended. What is wanted of sessions follows from it along the course
(`Course.lawful`): at the start of a write no other session is open and nothing
is on its way; from then on until the session is closed only its own transfers
end; and of a transfer that was given up nothing is heard again.
-/

namespace Enclave

/-! ## What is wanted -/

/-- Whether an event is the end of a transfer. -/
def SessionEvent.isEnd : SessionEvent → Bool
  | ended _ => true
  | _ => false

/-- **A session that is open**: a caller has opened one and has not closed it
since. -/
def ActiveIn (log : List SessionEvent) (k : Nat) : Prop :=
  ∃ before since, log = before ++ .opened k :: since ∧ .closed k ∉ since

/-- **A transfer that a caller has started.** -/
def StartedIn (log : List SessionEvent) (k t : Nat) : Prop :=
  .startedWrite k t ∈ log ∨ .startedRead k t ∈ log

/-- **A transfer that nobody has gone on from**, neither with it nor without. -/
def UnsettledIn (log : List SessionEvent) (t : Nat) : Prop :=
  ∀ j, .answered j t ∉ log ∧ .gaveUp j t ∉ log

/-- **What is to hold when something happens**, given all that happened before. -/
def SessionEvent.Lawful (before : List SessionEvent) : SessionEvent → Prop
  /- no other session is open, and no transfer is on its way -/
  | .startedWrite k _ =>
    (∀ j, ActiveIn before j ↔ j = k) ∧ ∀ j u, StartedIn before j u → .ended u ∈ before
  /- if a session has written and is not closed, the transfer is its own -/
  | .ended u => ∀ earlier k t since, before = earlier ++ .startedWrite k t :: since →
      .closed k ∉ since → u = t ∨ .startedRead k u ∈ since
  /- the caller has started the transfer, it has ended, and nobody has gone on
  from it before -/
  | .answered k t => StartedIn before k t ∧ .ended t ∈ before ∧ UnsettledIn before t
  | .gaveUp k t => StartedIn before k t ∧ UnsettledIn before t
  | _ => True

/-! ## Courses -/

/-- **What the caller in the session is about.** -/
inductive Phase where
  /-- There is no session. -/
  | idle
  /-- It waits for what is left of earlier sessions. -/
  | opened (k : Nat)
  /-- It is about to write. -/
  | clear (k : Nat)
  /-- It waits for its write. -/
  | writing (k t : Nat)
  /-- Its write was answered. -/
  | bound (k : Nat)
  /-- It waits for its read. -/
  | reading (k t : Nat)
  /-- It is about to close the session. -/
  | leaving (k : Nat)

namespace Phase

/-- Who is in the session. -/
def caller : Phase → Option Nat
  | idle => none
  | opened k => some k
  | clear k => some k
  | writing k _ => some k
  | bound k => some k
  | reading k _ => some k
  | leaving k => some k

/-- Whether the session has written. -/
def HasWritten : Phase → Prop
  | idle => False
  | opened _ => False
  | clear _ => False
  | _ => True

/-- Which transfers can be on their way, where something is known of it. -/
def Allows (u : Nat) : Phase → Prop
  | clear _ => False
  | writing _ t => u = t
  | bound _ => False
  | reading _ t => u = t
  | _ => True

/-- Which transfer is waited for. -/
def Awaits (k t : Nat) : Phase → Prop
  | writing j u => j = k ∧ u = t
  | reading j u => j = k ∧ u = t
  | _ => False

end Phase

/-- **A course of sessions**: what the session is about, how many transfers were
started, which ones have ended, and the log of it all. -/
inductive Course : Phase → Nat → List Nat → List SessionEvent → Prop
  | start : Course .idle 0 [] []
  | ended {phase : Phase} {n : Nat} {E : List Nat} {log : List SessionEvent} (t : Nat)
    (started : t < n) (first : t ∉ E) (before : Course phase n E log) :
    Course phase n (E ++ [t]) (log ++ [.ended t])
  | opened {n : Nat} {E : List Nat} {log : List SessionEvent} (k : Nat)
    (before : Course .idle n E log) : Course (.opened k) n E (log ++ [.opened k])
  | joined {n k : Nat} {E : List Nat} {log : List SessionEvent} (fence : ∀ t < n, t ∈ E)
    (before : Course (.opened k) n E log) : Course (.clear k) n E (log ++ [.joined k])
  | startedWrite {n k : Nat} {E : List Nat} {log : List SessionEvent}
    (before : Course (.clear k) n E log) :
    Course (.writing k n) (n + 1) E (log ++ [.startedWrite k n])
  | wrote {n k t : Nat} {E : List Nat} {log : List SessionEvent} (ended : t ∈ E)
    (before : Course (.writing k t) n E log) : Course (.bound k) n E (log ++ [.answered k t])
  | gaveUpWrite {n k t : Nat} {E : List Nat} {log : List SessionEvent}
    (before : Course (.writing k t) n E log) : Course (.leaving k) n E (log ++ [.gaveUp k t])
  | startedRead {n k : Nat} {E : List Nat} {log : List SessionEvent}
    (before : Course (.bound k) n E log) :
    Course (.reading k n) (n + 1) E (log ++ [.startedRead k n])
  | read {n k t : Nat} {E : List Nat} {log : List SessionEvent} (ended : t ∈ E)
    (before : Course (.reading k t) n E log) : Course (.leaving k) n E (log ++ [.answered k t])
  | gaveUpRead {n k t : Nat} {E : List Nat} {log : List SessionEvent}
    (before : Course (.reading k t) n E log) : Course (.leaving k) n E (log ++ [.gaveUp k t])
  | turnedAway {n k : Nat} {E : List Nat} {log : List SessionEvent}
    (before : Course (.bound k) n E log) : Course (.leaving k) n E log
  | closed {n k : Nat} {E : List Nat} {log : List SessionEvent}
    (before : Course (.leaving k) n E log) : Course .idle n E (log ++ [.closed k])

/-! ## Logs that grow -/

section Log

variable {log : List SessionEvent} {e : SessionEvent}

/-- An entry of a log that has grown is its last one or one of before. -/
theorem concat_eq_append_cons {before after : List SessionEvent} {event : SessionEvent}
    (h : log ++ [e] = before ++ event :: after) :
    (before = log ∧ event = e ∧ after = [])
      ∨ ∃ after', after = after' ++ [e] ∧ log = before ++ event :: after' := by
  rcases List.eq_nil_or_concat after with rfl | ⟨after', last, rfl⟩
  · obtain ⟨hlog, he⟩ := List.append_inj' h rfl
    cases he
    exact .inl ⟨hlog.symm, rfl, rfl⟩
  · rw [List.concat_eq_append] at h ⊢
    rw [← List.cons_append, ← List.append_assoc] at h
    obtain ⟨hlog, he⟩ := List.append_inj' h rfl
    cases he
    exact .inr ⟨after', rfl, hlog⟩

/-- A session is open if it was just opened, or was open and is not closed. -/
theorem activeIn_concat {j : Nat} :
    ActiveIn (log ++ [e]) j ↔ e = .opened j ∨ (ActiveIn log j ∧ e ≠ .closed j) := by
  constructor
  · rintro ⟨before, since, hlog, hclosed⟩
    rcases concat_eq_append_cons hlog with ⟨rfl, rfl, rfl⟩ | ⟨since', rfl, rfl⟩
    · exact .inl rfl
    · rw [List.mem_append, not_or, List.mem_singleton] at hclosed
      exact .inr ⟨⟨before, since', rfl, hclosed.1⟩, Ne.symm hclosed.2⟩
  · rintro (rfl | ⟨⟨before, since, rfl, hclosed⟩, he⟩)
    · exact ⟨log, [], rfl, List.not_mem_nil⟩
    · refine ⟨before, since ++ [e], by rw [List.append_assoc, List.cons_append], ?_⟩
      rw [List.mem_append, not_or, List.mem_singleton]
      exact ⟨hclosed, Ne.symm he⟩

theorem startedIn_concat {k t : Nat} :
    StartedIn (log ++ [e]) k t
      ↔ StartedIn log k t ∨ e = .startedWrite k t ∨ e = .startedRead k t := by
  unfold StartedIn
  simp only [List.mem_append, List.mem_singleton, eq_comm (b := e)]
  exact or_or_or_comm

theorem unsettledIn_concat {t : Nat} (h : UnsettledIn log t)
    (he : ∀ j, e ≠ .answered j t ∧ e ≠ .gaveUp j t) : UnsettledIn (log ++ [e]) t := by
  intro j
  simp only [List.mem_append, List.mem_singleton, not_or]
  exact ⟨⟨(h j).1, Ne.symm (he j).1⟩, (h j).2, Ne.symm (he j).2⟩

end Log

namespace Course

variable {phase : Phase} {n : Nat} {E : List Nat} {log : List SessionEvent}

/-- Who is in the session is who has it open. -/
theorem activeIn_iff (h : Course phase n E log) (j : Nat) :
    ActiveIn log j ↔ phase.caller = some j := by
  induction h with
  | start =>
    constructor
    · rintro ⟨before, since, hlog, -⟩
      cases before <;> cases hlog
    · intro hj
      cases hj
  | turnedAway _ ih => exact ih
  | _ => simp_all [activeIn_concat, Phase.caller, eq_comm]

/-- The log knows which transfers have ended. -/
theorem mem_ended_iff (h : Course phase n E log) (t : Nat) : .ended t ∈ log ↔ t ∈ E := by
  induction h <;> simp_all

/-- Transfers are numbered in the order of their starts. -/
theorem lt_of_startedIn (h : Course phase n E log) {j t : Nat} (ht : StartedIn log j t) :
    t < n := by
  induction h with
  | start => cases ht <;> contradiction
  | turnedAway _ ih => exact ih ht
  | startedWrite _ ih =>
    rcases startedIn_concat.mp ht with ht | ht | ht
    · exact Nat.lt_succ_of_lt (ih ht)
    · cases ht
      exact Nat.lt_succ_self t
    · cases ht
  | startedRead _ ih =>
    rcases startedIn_concat.mp ht with ht | ht | ht
    · exact Nat.lt_succ_of_lt (ih ht)
    · cases ht
    · cases ht
      exact Nat.lt_succ_self t
  | _ => simp_all [startedIn_concat]

/-- **What is waited for is unsettled**, and so is what is not yet started. -/
theorem unsettledIn (h : Course phase n E log) :
    (∀ t, n ≤ t → UnsettledIn log t)
      ∧ ∀ k t, phase.Awaits k t → StartedIn log k t ∧ UnsettledIn log t := by
  -- of what is waited for an answer settles nothing but itself
  have hsettles {phase : Phase} {n k t : Nat} {E : List Nat} {log : List SessionEvent}
      {e : SessionEvent} (h : Course phase n E log) (hawaits : phase.Awaits k t)
      (ih : (∀ t, n ≤ t → UnsettledIn log t)
        ∧ ∀ k t, phase.Awaits k t → StartedIn log k t ∧ UnsettledIn log t)
      (he : e = .answered k t ∨ e = .gaveUp k t) : ∀ u, n ≤ u → UnsettledIn (log ++ [e]) u := by
    intro u hu
    have hlt := h.lt_of_startedIn (ih.2 k t hawaits).1
    refine unsettledIn_concat (ih.1 u hu) (fun j => ?_)
    have hne : t ≠ u := Nat.ne_of_lt (Nat.lt_of_lt_of_le hlt hu)
    rcases he with rfl | rfl <;> simp [hne]
  induction h with
  | start => exact ⟨fun t _ j => ⟨List.not_mem_nil, List.not_mem_nil⟩, fun k t ht => ht.elim⟩
  | ended t _ _ _ ih =>
    refine ⟨fun u hu => unsettledIn_concat (ih.1 u hu) (by simp), fun k u hu => ?_⟩
    obtain ⟨hstarted, hunsettled⟩ := ih.2 k u hu
    exact ⟨startedIn_concat.mpr (.inl hstarted), unsettledIn_concat hunsettled (by simp)⟩
  | startedWrite _ ih =>
    refine ⟨fun u hu => unsettledIn_concat (ih.1 u (by omega)) (by simp), ?_⟩
    rintro j u ⟨rfl, rfl⟩
    exact ⟨startedIn_concat.mpr (.inr (.inl rfl)),
      unsettledIn_concat (ih.1 _ (Nat.le_refl _)) (by simp)⟩
  | startedRead _ ih =>
    refine ⟨fun u hu => unsettledIn_concat (ih.1 u (by omega)) (by simp), ?_⟩
    rintro j u ⟨rfl, rfl⟩
    exact ⟨startedIn_concat.mpr (.inr (.inr rfl)),
      unsettledIn_concat (ih.1 _ (Nat.le_refl _)) (by simp)⟩
  | wrote _ before ih => exact ⟨hsettles before ⟨rfl, rfl⟩ ih (.inl rfl), fun _ _ hu => hu.elim⟩
  | read _ before ih => exact ⟨hsettles before ⟨rfl, rfl⟩ ih (.inl rfl), fun _ _ hu => hu.elim⟩
  | gaveUpWrite before ih => exact ⟨hsettles before ⟨rfl, rfl⟩ ih (.inr rfl), fun _ _ hu => hu.elim⟩
  | gaveUpRead before ih => exact ⟨hsettles before ⟨rfl, rfl⟩ ih (.inr rfl), fun _ _ hu => hu.elim⟩
  | turnedAway _ ih => exact ⟨ih.1, fun _ _ hu => hu.elim⟩
  | _ =>
    rename_i ih
    exact ⟨fun u hu => unsettledIn_concat (ih.1 u hu) (by simp), fun _ _ hu => hu.elim⟩

/-- **What can be on its way**: from the fence on only what was started since. -/
theorem allows (h : Course phase n E log) {u : Nat} (hu : u < n) (hE : u ∉ E) :
    phase.Allows u := by
  induction h with
  | ended t _ _ _ ih => exact ih hu (fun h => hE (List.mem_append_left _ h))
  | joined fence _ _ => exact absurd (fence u hu) hE
  | startedWrite _ ih =>
    rcases Nat.lt_succ_iff_lt_or_eq.mp hu with hu | rfl
    · exact (ih hu hE).elim
    · rfl
  | startedRead _ ih =>
    rcases Nat.lt_succ_iff_lt_or_eq.mp hu with hu | rfl
    · exact (ih hu hE).elim
    · rfl
  | wrote ended _ ih =>
    cases ih hu hE
    exact absurd ended hE
  | _ => trivial

/-- **A session that has written and is not closed** is the one that is open, and
what is on its way is its own. -/
theorem own (h : Course phase n E log) :
    ∀ earlier k t since, log = earlier ++ .startedWrite k t :: since → .closed k ∉ since →
      phase.HasWritten ∧ phase.caller = some k
        ∧ ∀ u < n, u ∉ E → u = t ∨ .startedRead k u ∈ since := by
  -- what held before an event that is no write, when it comes
  have hbefore {phase : Phase} {n : Nat} {E : List Nat} {log : List SessionEvent}
      {e : SessionEvent}
      (ih : ∀ earlier k t since, log = earlier ++ .startedWrite k t :: since →
        .closed k ∉ since → phase.HasWritten ∧ phase.caller = some k
          ∧ ∀ u < n, u ∉ E → u = t ∨ .startedRead k u ∈ since)
      (he : ∀ k t, e ≠ .startedWrite k t) {earlier since : List SessionEvent} {k t : Nat}
      (hlog : log ++ [e] = earlier ++ .startedWrite k t :: since) (hclosed : .closed k ∉ since) :
      .closed k ≠ e ∧ phase.HasWritten ∧ phase.caller = some k
        ∧ ∀ u < n, u ∉ E → u = t ∨ .startedRead k u ∈ since := by
    rcases concat_eq_append_cons hlog with ⟨-, hstart, -⟩ | ⟨since', rfl, hlog'⟩
    · exact absurd hstart.symm (he k t)
    · rw [List.mem_append, not_or, List.mem_singleton] at hclosed
      obtain ⟨hwritten, hcaller, hown⟩ := ih earlier k t since' hlog' hclosed.1
      exact ⟨hclosed.2, hwritten, hcaller,
        fun u hu hE => (hown u hu hE).imp_right (List.mem_append_left _)⟩
  induction h with
  | start =>
    intro earlier k t since hlog
    cases earlier <;> cases hlog
  | ended u _ _ _ ih =>
    intro earlier k t since hlog hclosed
    obtain ⟨-, hwritten, hcaller, hown⟩ := hbefore ih (by simp) hlog hclosed
    exact ⟨hwritten, hcaller, fun u hu hE => hown u hu (fun h => hE (List.mem_append_left _ h))⟩
  | opened k _ ih =>
    intro earlier k t since hlog hclosed
    exact (hbefore ih (by simp) hlog hclosed).2.1.elim
  | joined _ _ ih =>
    intro earlier k t since hlog hclosed
    exact (hbefore ih (by simp) hlog hclosed).2.1.elim
  | startedWrite before ih =>
    intro earlier k t since hlog hclosed
    rcases concat_eq_append_cons hlog with ⟨rfl, he, rfl⟩ | ⟨since', rfl, hlog'⟩
    · cases he
      exact ⟨trivial, rfl, fun u hu hE => .inl (before.startedWrite.allows hu hE)⟩
    · -- no session that has written is open when one begins to
      exact (ih earlier k t since' hlog' (fun h => hclosed (List.mem_append_left _ h))).1.elim
  | startedRead before ih =>
    intro earlier k t since hlog hclosed
    rcases concat_eq_append_cons hlog with ⟨-, he, -⟩ | ⟨since', rfl, hlog'⟩
    · cases he
    · cases (ih earlier k t since' hlog' (fun h => hclosed (List.mem_append_left _ h))).2.1
      refine ⟨trivial, rfl, fun u hu hE => .inr ?_⟩
      cases before.startedRead.allows hu hE
      exact List.mem_append_right _ (List.mem_singleton_self _)
  | turnedAway _ ih =>
    intro earlier k t since hlog hclosed
    exact ⟨trivial, (ih earlier k t since hlog hclosed).2⟩
  | closed _ ih =>
    intro earlier k t since hlog hclosed
    obtain ⟨hne, -, hcaller, -⟩ := hbefore ih (by simp) hlog hclosed
    cases hcaller
    exact absurd rfl hne
  | _ =>
    rename_i ih
    intro earlier k t since hlog hclosed
    exact ⟨trivial, (hbefore ih (by simp) hlog hclosed).2.2⟩

/-- **Whatever happens in a course is lawful.** -/
theorem lawful (h : Course phase n E log) :
    ∀ before event after, log = before ++ event :: after → event.Lawful before := by
  -- the last event is the only one that is not covered by what held before
  have hlast {log : List SessionEvent} {e : SessionEvent} (he : e.Lawful log)
      (ih : ∀ before event after, log = before ++ event :: after → event.Lawful before) :
      ∀ before event after, log ++ [e] = before ++ event :: after → event.Lawful before := by
    intro before event after hlog
    rcases concat_eq_append_cons hlog with ⟨rfl, rfl, -⟩ | ⟨after', -, hlog'⟩
    · exact he
    · exact ih before event after' hlog'
  induction h with
  | start =>
    intro before event after hlog
    cases before <;> cases hlog
  | ended t started first before ih =>
    refine hlast (fun earlier k u since hlog hclosed => ?_) ih
    exact (before.own earlier k u since hlog hclosed).2.2 t started first
  | startedWrite before ih =>
    refine hlast ⟨fun j => ?_, fun j u hu => ?_⟩ ih
    · rw [before.activeIn_iff]
      exact Option.some_inj.trans eq_comm
    · rw [before.mem_ended_iff]
      exact Decidable.byContradiction (before.allows (before.lt_of_startedIn hu))
  | wrote ended before ih =>
    obtain ⟨hstarted, hunsettled⟩ := before.unsettledIn.2 _ _ ⟨rfl, rfl⟩
    exact hlast ⟨hstarted, (before.mem_ended_iff _).mpr ended, hunsettled⟩ ih
  | read ended before ih =>
    obtain ⟨hstarted, hunsettled⟩ := before.unsettledIn.2 _ _ ⟨rfl, rfl⟩
    exact hlast ⟨hstarted, (before.mem_ended_iff _).mpr ended, hunsettled⟩ ih
  | gaveUpWrite before ih => exact hlast (before.unsettledIn.2 _ _ ⟨rfl, rfl⟩) ih
  | gaveUpRead before ih => exact hlast (before.unsettledIn.2 _ _ ⟨rfl, rfl⟩) ih
  | turnedAway _ ih => exact ih
  | _ =>
    rename_i ih
    exact hlast trivial ih

end Course

end Enclave
