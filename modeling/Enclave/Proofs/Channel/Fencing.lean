import Enclave.Proofs.Channel.Client
import Enclave.Proofs.Channel.Course

/-!
# Sessions over directories are fenced

Callers with any directories of attestation files, with and without limits of
time, share one session and one list of parked transfers. Whatever the order of
their turns, of the ends of transfers and of the expiries of their limits, what
happens is a course of fenced sessions, and each caller goes on from its own
transfers only.

The state of the system is described as for an emulated enclave: between two
sessions all callers are clients, and while a session is open, one of them is
somewhere on its way through it (`Serial`). What has to be known in addition is
where a transfer can be that is on its way. Between sessions it is parked. In a
session that was just opened it is among those that its caller waits for, and
when the waiting is over there is none, which is the fence of the course.
-/

namespace Enclave

variable {α β : Type}

/-! ## Sessions with directories -/

/-- **How a caller goes on from a transfer.** -/
inductive Upshot where
  /-- With what the transfer ended with. -/
  | answered
  /-- Without it, since it took too long. -/
  | gaveUp
deriving DecidableEq, Repr

namespace Upshot

/-- What is logged of it. -/
def event (k t : Nat) : Upshot → SessionEvent
  | answered => .answered k t
  | gaveUp => .gaveUp k t

/-- The outcome of a transfer for its caller. -/
def outcome (result : Except IoError β) : Upshot → Outcome β
  | answered => .finished result
  | gaveUp => .stalled

end Upshot

namespace PseudoFiles

variable (p : PseudoFiles) (endings : Endings)

/-- What a caller hears of a write. -/
def afterWrite (t : Nat) (u : Upshot) : Except Error Nat :=
  answer (p.path .userReportData) (u.outcome (endings.written t))

/-- What a caller hears of a read. -/
def afterRead (file : AttestationFile) (t : Nat) (u : Upshot) : Except Error Bytes :=
  answer (p.path file) (u.outcome (endings.delivered t))

end PseudoFiles

/-- **A session with a directory**, in which its caller waits for earlier
transfers, writes, and reads if the write took everything. It goes on from the
transfers that it started in the session. -/
inductive Session.IsFenced (endings : Endings) : Session PseudoFiles SessionEvent → Prop
  | failed (k : Nat) (p : PseudoFiles) (x : Exchange) (t : Nat) (u : Upshot) (e : Error)
    (write : p.afterWrite endings t u = .error e) :
    IsFenced endings ⟨k, p, x,
      [.opened k, .joined k, .startedWrite k t, u.event k t, .closed k], .error e⟩
  | short (k : Nat) (p : PseudoFiles) (x : Exchange) (t : Nat) (u : Upshot) (n : Nat)
    (write : p.afterWrite endings t u = .ok n) (short : n ≠ 64) :
    IsFenced endings ⟨k, p, x,
      [.opened k, .joined k, .startedWrite k t, u.event k t, .closed k],
      .error (.shortTransfer .write AttestationFile.userReportData.name 64 n)⟩
  | read (k : Nat) (p : PseudoFiles) (x : Exchange) (t : Nat) (u : Upshot) (t' : Nat) (u' : Upshot)
    (write : p.afterWrite endings t u = .ok 64) :
    IsFenced endings ⟨k, p, x,
      [.opened k, .joined k, .startedWrite k t, u.event k t, .startedRead k t', u'.event k t',
        .closed k],
      p.afterRead endings x.file t' u'⟩

/-- **Who gave up a transfer was told that its time was over**, by an error that
names the file. -/
theorem Session.IsFenced.answer_of_gaveUp {endings : Endings}
    {v : Session PseudoFiles SessionEvent} (h : v.IsFenced endings) {k t : Nat}
    (hgaveUp : .gaveUp k t ∈ v.events) :
    ∃ file, v.answer = .error (.channelUnavailable (v.channel.path file) .expired) := by
  cases h with
  | failed k p x t u e write =>
    cases u with
    | answered => simp [Upshot.event] at hgaveUp
    | gaveUp =>
      cases write
      exact ⟨_, rfl⟩
  | short k p x t u n write short =>
    cases u with
    | answered => simp [Upshot.event] at hgaveUp
    | gaveUp => cases write
  | read k p x t u t' u' write =>
    cases u with
    | gaveUp => cases write
    | answered =>
      cases u' with
      | answered => simp [Upshot.event] at hgaveUp
      | gaveUp => exact ⟨x.file, rfl⟩

/-- **After the answer to its write a caller goes on to read**, or it has its
answer already. -/
theorem Client.written_eq (endings : Endings) (k t : Nat) (u : Upshot) (p : PseudoFiles)
    (x : Exchange) (next : Except Error Bytes → Client PseudoFiles α) :
    (p.afterWrite endings t u = .ok 64
        ∧ written p x next (p.afterWrite endings t u) = .read p x.file x.limit (leave p next))
      ∨ ∃ answer, written p x next (p.afterWrite endings t u) = leave p next answer
        ∧ Session.IsFenced endings ⟨k, p, x,
          [.opened k, .joined k, .startedWrite k t, u.event k t, .closed k], answer⟩ := by
  cases h : p.afterWrite endings t u with
  | error e => exact .inr ⟨.error e, rfl, .failed k p x t u e h⟩
  | ok n =>
    by_cases hn : n = 64
    · subst hn
      exact .inl ⟨rfl, rfl⟩
    · exact .inr ⟨_, if_neg hn, .short k p x t u n h hn⟩

/-- A client as a caller that waits for its turn. -/
def Client.caller (p : Client PseudoFiles α) : Caller α := ⟨p.steps, .turn⟩

namespace Expiry

/-! ## The system between and within sessions -/

/-- **What can be on its way** is among some transfers. -/
def Settled (s : Expiry α) (left : List Nat) : Prop :=
  ∀ t < s.started, t ∈ s.ended ∨ t ∈ left

/-- **How far a caller has got in its session**: what the session is about, what
has happened in it, and what the caller has left to do. -/
inductive Stage (endings : Endings) (s : Expiry α) (k : Nat) (p : PseudoFiles) (x : Exchange)
    (next : Except Error Bytes → Client PseudoFiles α) :
    Phase → List SessionEvent → Caller α → Prop
  | opened (settled : s.Settled s.parked) : Stage endings s k p x next (.opened k) [.opened k]
      ⟨.openSession p (Client.opened p x next), .parkedTransfers⟩
  | joining (ts : List Nat) (parked : s.parked = []) (settled : s.Settled ts) :
    Stage endings s k p x next (.opened k) [.opened k]
      ⟨.openSession p (Client.opened p x next), .joining ts⟩
  | clear (parked : s.parked = []) : Stage endings s k p x next (.clear k) [.opened k, .joined k]
      ⟨Client.opened p x next, .turn⟩
  | writing (t : Nat) (parked : s.parked = []) : Stage endings s k p x next (.writing k t)
      [.opened k, .joined k, .startedWrite k t] ⟨Client.opened p x next, .transfer t⟩
  | bound (t : Nat) (parked : s.parked = []) (write : p.afterWrite endings t .answered = .ok 64) :
    Stage endings s k p x next (.bound k)
      [.opened k, .joined k, .startedWrite k t, .answered k t]
      ⟨.read p x.file x.limit (Client.leave p next), .turn⟩
  | reading (t t' : Nat) (parked : s.parked = [])
    (write : p.afterWrite endings t .answered = .ok 64) :
    Stage endings s k p x next (.reading k t')
      [.opened k, .joined k, .startedWrite k t, .answered k t, .startedRead k t']
      ⟨.read p x.file x.limit (Client.leave p next), .transfer t'⟩
  | leaving (taken : List SessionEvent) (answer : Except Error Bytes)
    (settled : s.Settled s.parked) (unclosed : ∀ j, .closed j ∉ taken)
    (due : Session.IsFenced endings ⟨k, p, x, taken ++ [.closed k], answer⟩) :
    Stage endings s k p x next (.leaving k) taken ⟨Client.leave p next answer, .turn⟩

/-- **The system as clients that have had some sessions**, in the course of which
everything happened. -/
inductive Serial (endings : Endings) (s : Expiry α)
    (sessions : List (Session PseudoFiles SessionEvent))
    (clients : List (Client PseudoFiles α)) : Prop
  | idle (holder : s.holder = none) (course : Course .idle s.started s.ended s.log)
    (settled : s.Settled s.parked) (callers : s.callers = clients.map Client.caller)
    (log : s.log.filter (!·.isEnd) = sessions.flatMap Session.events)
  | busy (k : Nat) (p : PseudoFiles) (x : Exchange)
    (next : Except Error Bytes → Client PseudoFiles α) (phase : Phase)
    (taken : List SessionEvent) (c : Caller α) (holder : s.holder = some k)
    (client : clients[k]? = some (.ask p x next))
    (stage : Stage endings s k p x next phase taken c)
    (course : Course phase s.started s.ended s.log)
    (callers : s.callers = (clients.map Client.caller).set k c)
    (log : s.log.filter (!·.isEnd) = sessions.flatMap Session.events ++ taken)

namespace Serial

variable {endings : Endings} {s s' : Expiry α}
  {sessions : List (Session PseudoFiles SessionEvent)} {clients : List (Client PseudoFiles α)}

/-- Before the first move. -/
theorem start (endings : Endings) (clients : List (Client PseudoFiles α)) :
    Serial endings (start (clients.map Client.steps)) [] clients :=
  .idle rfl .start (fun _ ht => absurd ht (Nat.not_lt_zero _)) List.map_map rfl

/-- A caller outside of the session does nothing but open one, and that only
while none is open. -/
theorem eq_of_takeTurn_client {j : Nat} (hj : s.callers[j]? = clients[j]?.map Client.caller)
    (hstep : s.takeTurn endings j = some s') :
    s.holder = none ∧ ∃ p x next, clients[j]? = some (.ask p x next)
      ∧ s' = { s.goOn j ⟨.openSession p (Client.opened p x next), .parkedTransfers⟩ (.opened j) with
        holder := some j } := by
  unfold takeTurn at hstep
  cases hclient : clients[j]? with
  | none =>
    rw [hj, hclient] at hstep
    cases hstep
  | some p =>
    rw [hj, hclient] at hstep
    cases p with
    | done a => cases hstep
    | ask p x next =>
      dsimp only [Option.map_some, Client.caller] at hstep
      rw [Client.steps_ask] at hstep
      dsimp only at hstep
      cases hholder : s.holder with
      | some k =>
        rw [hholder] at hstep
        cases hstep
      | none =>
        rw [hholder] at hstep
        cases hstep
        exact ⟨rfl, p, x, next, rfl, rfl⟩

/-- A caller outside of the session has no transfer that could expire. -/
theorem expire_client {j : Nat} (hj : s.callers[j]? = clients[j]?.map Client.caller) :
    s.expire j = none := by
  unfold expire
  rw [hj]
  cases clients[j]? with
  | none => rfl
  | some p =>
    cases p with
    | done a => rfl
    | ask p x next =>
      dsimp only [Option.map_some, Client.caller]
      rw [Client.steps_ask]

/-- What happens in a session is added to what has happened in it. -/
theorem filter_concat {log events taken : List SessionEvent} {e : SessionEvent}
    (h : log.filter (!·.isEnd) = events ++ taken) (he : e.isEnd = false) :
    (log ++ [e]).filter (!·.isEnd) = events ++ (taken ++ [e]) := by
  rw [List.filter_append, h, List.append_assoc]
  simp [he]

/-- **The turn of a caller**, seen from between the sessions. -/
theorem takeTurn {j : Nat} (h : Serial endings s sessions clients)
    (hstep : s.takeTurn endings j = some s') :
    Serial endings s' sessions clients
      ∨ ∃ t next, t.IsFenced endings ∧ clients[t.caller]? = some (.ask t.channel t.exchange next)
        ∧ Serial endings s' (sessions ++ [t]) (clients.set t.caller (next t.answer)) := by
  cases h with
  | idle holder course settled callers log =>
    have hj : s.callers[j]? = clients[j]?.map Client.caller := by rw [callers, List.getElem?_map]
    obtain ⟨-, p, x, next, client, rfl⟩ := eq_of_takeTurn_client hj hstep
    refine .inl (.busy j p x next _ _ _ rfl client (.opened settled) (course.opened j) ?_ ?_)
    · exact congrArg (List.set · j _) callers
    · exact (List.filter_append ..).trans (congrArg (· ++ _) log)
  | busy k p x next phase taken c holder client stage course callers log =>
    by_cases hjk : j = k
    case neg =>
      -- everybody else waits for the session, or is done
      have hj : s.callers[j]? = clients[j]?.map Client.caller := by
        rw [callers, List.getElem?_set_ne (Ne.symm hjk), List.getElem?_map]
      rw [(eq_of_takeTurn_client hj hstep).1] at holder
      cases holder
    subst hjk
    have hj : s.callers[j]? = some c := by rw [callers, getElem?_set_map client]
    have hset (c' : Caller α) : s.callers.set j c' = (clients.map Client.caller).set j c' := by
      rw [callers, List.set_set]
    have hlog {e : SessionEvent} (he : e.isEnd = false) := filter_concat log he
    unfold Expiry.takeTurn at hstep
    rw [hj] at hstep
    cases stage with
    | opened settled =>
      cases hstep
      exact .inl (.busy j p x next _ _ _ holder client (.joining s.parked rfl settled) course
        (hset _) log)
    | joining ts parked settled =>
      cases ts with
      | nil =>
        cases hstep
        have fence (t : Nat) (ht : t < s.started) : t ∈ s.ended :=
          (settled t ht).resolve_right List.not_mem_nil
        exact .inl (.busy j p x next _ _ _ holder client (.clear parked) (course.joined fence)
          (hset _) (hlog rfl))
      | cons t ts =>
        dsimp only at hstep
        split at hstep
        · next hended =>
          cases hstep
          refine .inl (.busy j p x next _ _ _ holder client (.joining ts parked fun u hu => ?_)
            course (hset _) log)
          rcases settled u hu with hu | hu
          · exact .inl hu
          · rcases List.mem_cons.mp hu with rfl | hu
            · exact .inl hended
            · exact .inr hu
        · cases hstep
    | clear parked =>
      cases hstep
      exact .inl (.busy j p x next _ _ _ holder client (.writing s.started parked)
        course.startedWrite (hset _) (hlog rfl))
    | writing t parked =>
      dsimp only [Client.opened] at hstep
      split at hstep
      case isFalse => cases hstep
      case isTrue hended =>
      cases hstep
      have course' := course.wrote hended
      rcases Client.written_eq endings j t .answered p x next with
        ⟨write, hrest⟩ | ⟨answer, hrest, due⟩
      · exact .inl (.busy j p x next _ _ _ holder client (.bound t parked write) course'
          ((congrArg (fun rest => s.callers.set j ⟨rest, .turn⟩) hrest).trans (hset _)) (hlog rfl))
      · refine .inl (.busy j p x next _ _ _ holder client
          (.leaving _ answer (fun u hu => .inl ?_) (by simp) due) course'.turnedAway
          ((congrArg (fun rest => s.callers.set j ⟨rest, .turn⟩) hrest).trans (hset _)) (hlog rfl))
        exact Decidable.byContradiction (course'.allows hu)
    | bound t parked write =>
      cases hstep
      exact .inl (.busy j p x next _ _ _ holder client (.reading t s.started parked write)
        course.startedRead (hset _) (hlog rfl))
    | reading t t' parked write =>
      dsimp only at hstep
      split at hstep
      case isFalse => cases hstep
      case isTrue hended =>
      cases hstep
      refine .inl (.busy j p x next _ _ _ holder client
        (.leaving _ (p.afterRead endings x.file t' .answered) (fun u hu => .inl ?_) (by simp)
          (.read j p x t .answered t' .answered write)) (course.read hended) (hset _) (hlog rfl))
      refine Decidable.byContradiction (fun hE => ?_)
      cases course.allows hu hE
      exact hE hended
    | leaving taken answer settled unclosed due =>
      cases hstep
      refine .inr ⟨⟨j, p, x, taken ++ [.closed j], answer⟩, next, due, client,
        .idle (if_pos holder) course.closed settled ?_ ?_⟩
      · rw [List.map_set]
        exact hset _
      · rw [List.flatMap_append, List.flatMap_singleton]
        exact hlog rfl

/-- **The expiry of a limit**: the caller goes on to close its session. -/
theorem expire {j : Nat} (h : Serial endings s sessions clients) (hstep : s.expire j = some s') :
    Serial endings s' sessions clients := by
  cases h with
  | idle holder course settled callers log =>
    rw [expire_client (by rw [callers, List.getElem?_map])] at hstep
    cases hstep
  | busy k p x next phase taken c holder client stage course callers log =>
    by_cases hjk : j = k
    case neg =>
      rw [expire_client (by rw [callers, List.getElem?_set_ne (Ne.symm hjk), List.getElem?_map])]
        at hstep
      cases hstep
    subst hjk
    have hj : s.callers[j]? = some c := by rw [callers, getElem?_set_map client]
    have hset (c' : Caller α) : s.callers.set j c' = (clients.map Client.caller).set j c' := by
      rw [callers, List.set_set]
    unfold Expiry.expire at hstep
    rw [hj] at hstep
    cases stage with
    | opened => cases hstep
    | joining => cases hstep
    | clear => cases hstep
    | bound => cases hstep
    | leaving => cases hstep
    | writing t parked =>
      dsimp only [Client.opened] at hstep
      split at hstep
      case isFalse => cases hstep
      case isTrue =>
      cases hstep
      refine .busy j p x next _ _ _ holder client
        (.leaving [.opened j, .joined j, .startedWrite j t, .gaveUp j t] _ (fun u hu => ?_)
          (by simp) (.failed j p x t .gaveUp _ rfl))
        course.gaveUpWrite (hset _) (filter_concat log rfl)
      by_cases hE : u ∈ s.ended
      · exact .inl hE
      · cases course.allows hu hE
        exact .inr (List.mem_append_right _ (List.mem_singleton_self _))
    | reading t t' parked write =>
      dsimp only at hstep
      split at hstep
      case isFalse => cases hstep
      case isTrue =>
      cases hstep
      refine .busy j p x next _ _ _ holder client
        (.leaving [.opened j, .joined j, .startedWrite j t, .answered j t, .startedRead j t',
          .gaveUp j t'] _ (fun u hu => ?_) (by simp)
          (.read j p x t .answered t' .gaveUp write))
        course.gaveUpRead (hset _) (filter_concat log rfl)
      by_cases hE : u ∈ s.ended
      · exact .inl hE
      · cases course.allows hu hE
        exact .inr (List.mem_append_right _ (List.mem_singleton_self _))

/-- **The end of a transfer**, wherever it belongs. -/
theorem endTransfer {t : Nat} (h : Serial endings s sessions clients)
    (hstep : s.endTransfer t = some s') : Serial endings s' sessions clients := by
  unfold Expiry.endTransfer at hstep
  split at hstep
  case isFalse => cases hstep
  case isTrue ht =>
  cases hstep
  have hsettled {left : List Nat} (settled : s.Settled left) : Settled { s with
      ended := s.ended ++ [t], log := s.log ++ [SessionEvent.ended t] } left :=
    fun u hu => (settled u hu).imp_left (List.mem_append_left _)
  have hlog : (s.log ++ [SessionEvent.ended t]).filter (!·.isEnd) = s.log.filter (!·.isEnd) := by
    rw [List.filter_append]
    exact List.append_nil _
  cases h with
  | idle holder course settled callers log =>
    exact .idle holder (course.ended t ht.1 ht.2) (hsettled settled) callers (hlog.trans log)
  | busy k p x next phase taken c holder client stage course callers log =>
    refine .busy k p x next phase taken c holder client ?_ (course.ended t ht.1 ht.2) callers
      (hlog.trans log)
    cases stage with
    | opened settled => exact .opened (hsettled settled)
    | joining ts parked settled => exact .joining ts parked (hsettled settled)
    | clear parked => exact .clear parked
    | writing t parked => exact .writing t parked
    | bound t parked write => exact .bound t parked write
    | reading t t' parked write => exact .reading t t' parked write
    | leaving taken answer settled unclosed due =>
      exact .leaving taken answer (hsettled settled) unclosed due

/-- **One move, seen from between the sessions**: nothing, or one more session
that one client has had. -/
theorem step {move : Move} (h : Serial endings s sessions clients)
    (hstep : s.step endings move = some s') :
    Serial endings s' sessions clients
      ∨ ∃ t next, t.IsFenced endings ∧ clients[t.caller]? = some (.ask t.channel t.exchange next)
        ∧ Serial endings s' (sessions ++ [t]) (clients.set t.caller (next t.answer)) := by
  cases move with
  | turn j => exact h.takeTurn hstep
  | ends t => exact .inl (h.endTransfer hstep)
  | expires j => exact .inl (h.expire hstep)

/-- **A history comes to sessions in turn.** -/
theorem run {clients₀ : List (Client PseudoFiles α)} (h : Serial endings s sessions clients)
    (turns : InTurn (Session.IsFenced endings) clients₀ sessions clients) (moves : List Move) :
    ∃ sessions' clients', Serial endings (s.run endings moves) sessions' clients'
      ∧ InTurn (Session.IsFenced endings) clients₀ sessions' clients' := by
  induction moves generalizing s sessions clients with
  | nil => exact ⟨sessions, clients, h, turns⟩
  | cons move moves ih =>
    rw [run_cons]
    cases hstep : s.step endings move with
    | none => exact ih h turns
    | some s' =>
      rcases h.step hstep with h' | ⟨t, next, due, client, h'⟩
      · exact ih h' turns
      · exact ih h' (turns.one t next due client)

/-- **A caller that is done is a client that is done.** -/
theorem done_of_result? (h : Serial endings s sessions clients) {k : Nat} {a : α}
    (hresult : s.result? k = some a) : clients[k]? = some (.done a) := by
  obtain ⟨waiting, hcaller⟩ : ∃ waiting, s.callers[k]? = some ⟨.done a, waiting⟩ := by
    unfold result? at hresult
    split at hresult
    · next waiting hk =>
      cases hresult
      exact ⟨waiting, hk⟩
    · cases hresult
  have hclient (hk : s.callers[k]? = clients[k]?.map Client.caller) :
      clients[k]? = some (.done a) := by
    rw [hcaller] at hk
    obtain ⟨p, hp, hcaller⟩ := Option.map_eq_some_iff.mp hk.symm
    rwa [Client.eq_done_of_steps (congrArg Caller.rest hcaller)] at hp
  cases h with
  | idle holder course settled callers log =>
    exact hclient (by rw [callers, List.getElem?_map])
  | busy j p x next phase taken c holder client stage course callers log =>
    by_cases hjk : j = k
    case neg => exact hclient (by rw [callers, List.getElem?_set_ne hjk, List.getElem?_map])
    -- who is in the session has a step to take
    subst hjk
    rw [callers, getElem?_set_map client] at hcaller
    cases hcaller
    cases stage

/-- What was logged, but for the ends of transfers, are whole sessions in turn and
the beginning of one more. -/
theorem filter_log (h : Serial endings s sessions clients) :
    ∃ current, s.log.filter (!·.isEnd) = sessions.flatMap Session.events ++ current
      ∧ ∀ j, .closed j ∉ current := by
  cases h with
  | idle holder course settled callers log =>
    exact ⟨[], by rw [log, List.append_nil], fun j => List.not_mem_nil⟩
  | busy k p x next phase taken c holder client stage course callers log =>
    refine ⟨taken, log, fun j => ?_⟩
    cases stage with
    | leaving taken answer settled unclosed due => exact unclosed j
    | _ => simp

end Serial

/-- **Sessions over directories are exclusive and fenced.** Callers use any
directories, and take their turns in any order, while transfers end and limits
expire at any time. At the start of every write no other session is open and
every transfer of a session before has ended. While a session has written and is
not closed, only its own transfers end. A caller goes on from a transfer that it
has started itself and that nobody has gone on from before.

So each caller is answered from its own sessions alone. They follow each other
as wholes, and one that gave up a transfer was told so by an error. -/
theorem run_fenced (endings : Endings) (clients : List (Client PseudoFiles α))
    (moves : List Move) :
    let s := (start (clients.map Client.steps)).run endings moves
    (∀ before event after, s.log = before ++ event :: after → event.Lawful before)
      ∧ ∃ sessions left current,
        InTurn (Session.IsFenced endings) clients sessions left
          ∧ (∀ k a, s.result? k = some a → left[k]? = some (.done a))
          ∧ s.log.filter (!·.isEnd) = sessions.flatMap Session.events ++ current
          ∧ (∀ j, .closed j ∉ current)
          ∧ ∀ v ∈ sessions, ∀ k t, .gaveUp k t ∈ v.events → ∃ file cause,
            v.answer = .error (.channelUnavailable (v.channel.path file) cause)
              ∧ cause.kind = .timedOut := by
  intro s
  obtain ⟨sessions, left, hs, turns⟩ := (Serial.start endings clients).run .none moves
  obtain ⟨current, hlog, hcurrent⟩ := hs.filter_log
  refine ⟨?_, sessions, left, current, turns, fun k a => hs.done_of_result?, hlog, hcurrent, ?_⟩
  · cases hs with
    | idle _ course => exact course.lawful
    | busy _ _ _ _ _ _ _ _ _ _ course => exact course.lawful
  · intro v hv k t hgaveUp
    obtain ⟨file, hanswer⟩ := (turns.due v hv).answer_of_gaveUp hgaveUp
    exact ⟨file, .expired, hanswer, rfl⟩

/-- A write expires and is parked. The next session waits for its end, and only then
writes and reads for itself. -/
theorem run_fenced_after_expiry :
    let p : PseudoFiles := { root := PseudoFiles.defaultRoot, limit := some 1000 }
    let client : Client PseudoFiles (Option Bytes) :=
      .ask p ⟨.zero, .quote, 8192⟩ fun answer => .done answer.toOption
    let endings : Endings := ⟨fun _ => .ok 64, fun _ => .ok [1]⟩
    let expired : List Move := [.turn 0, .turn 0, .turn 0, .turn 0, .expires 0, .turn 0]
    -- the third turn of the second caller comes before the transfer has ended
    let waited : List Move := [.turn 1, .turn 1, .turn 1, .ends 0, .turn 1, .turn 1]
    let transferred : List Move := [.turn 1, .ends 1, .turn 1, .turn 1, .ends 2, .turn 1, .turn 1]
    let s := (start [client.steps, client.steps]).run endings (expired ++ waited ++ transferred)
    let before : List SessionEvent := [.opened 0, .joined 0, .startedWrite 0 0, .gaveUp 0 0,
      .closed 0, .opened 1, .ended 0, .joined 1]
    let after : List SessionEvent := [.ended 1, .answered 1 1, .startedRead 1 2, .ended 2,
      .answered 1 2, .closed 1]
    s.log = before ++ .startedWrite 1 1 :: after
      ∧ (SessionEvent.startedWrite 1 1).Lawful before
      ∧ s.result? 0 = some none ∧ s.result? 1 = some (some [1]) := by
  intro p client endings expired waited transferred s before after
  have hran : s.log = before ++ .startedWrite 1 1 :: after
      ∧ s.result? 0 = some none ∧ s.result? 1 = some (some [1]) := by decide +kernel +revert
  obtain ⟨hlawful, -⟩ :=
    run_fenced endings [client, client] (expired ++ waited ++ transferred)
  exact ⟨hran.1, hlawful before _ after hran.1, hran.2⟩

end Expiry

end Enclave
