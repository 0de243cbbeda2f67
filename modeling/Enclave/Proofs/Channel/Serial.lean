import Enclave.Channel.Sharing
import Enclave.Proofs.Channel.Client
import Enclave.Proofs.Channel.EmulatedSession

/-!
# Clients that share an emulated enclave take turns

Clones of an emulated enclave hold one report data between them, and a write and
the read that follows it are two steps. What keeps the report data of one client
out of the evidence of another is the session around the two.

The state of the system is described by what the clients would look like if
every session were a single step (`Serial`): between two sessions all of them
are clients, and while one is open, one of them is somewhere on its way through
it, with the report data held being its own as soon as it was written. Every
step keeps to that description (`Serial.step`), so that every schedule comes to
whole sessions one after the other (`InTurn`), each answered as if its caller
were alone. Nobody waits forever: as long as some client is not done, some
client can take a step, and only so many steps can be taken (`exists_run`).
-/

namespace Enclave

variable {α : Type}

/-- **What an exchange brings** on an emulated enclave that nobody else uses in
the meantime. -/
def MockEnclave.answer (e : MockEnclave) (x : Exchange) : Bytes :=
  (e.render x.data x.file).take x.limit

namespace Client

/-- **What a client ends with** if nobody else uses the enclaves. -/
def alone : Client MockEnclave α → α
  | done a => a
  | ask e x next => (next (.ok (e.answer x))).alone

/-- How many sessions a client opens if nobody else uses the enclaves. -/
def length : Client MockEnclave α → Nat
  | done _ => 0
  | ask e x next => (next (.ok (e.answer x))).length + 1

/-- A client that takes all its steps in a row is alone, whatever was held
before. -/
theorem perform_steps (p : Client MockEnclave α) (held : ReportData) :
    (StateT.run (p.steps.perform MockEnclave.channel) held).1 = p.alone := by
  induction p generalizing held with
  | done a => rfl
  | ask e x next ih =>
    have hsession : StateT.run ((e.channel.bindAndRead x.data x.file x.limit).run) held
        = (.ok (e.answer x), x.data) := e.run_bindAndRead x.data held x.file x.limit
    rw [steps, Steps.perform_bind, Steps.perform_bindAndRead, StateT.run_bind, hsession]
    exact ih _ _

end Client

/-- **A session with an emulated enclave**, with the answers that are due to its
caller. -/
def MockEnclave.session (e : MockEnclave) (k : Nat) (x : Exchange) :
    Session MockEnclave (Nat × ChannelStep) where
  caller := k
  channel := e
  exchange := x
  events :=
    [(k, .openSession), (k, .write .userReportData x.data.toBytes (.ok 64)),
      (k, .read x.file x.limit (.ok (e.answer x))), (k, .closeSession)]
  answer := .ok (e.answer x)

/-- A session that went as it does with an emulated enclave. -/
def Session.IsEmulated (t : Session MockEnclave (Nat × ChannelStep)) : Prop :=
  t = t.channel.session t.caller t.exchange

/-- How many sessions some clients open in all, each of them if it were alone. -/
def Client.totalLength : List (Client MockEnclave α) → Nat
  | [] => 0
  | p :: clients => p.length + totalLength clients

/-- A client that has had a session has one less to go. -/
theorem Client.totalLength_set {clients : List (Client MockEnclave α)} {k : Nat}
    {p q : Client MockEnclave α} (hk : clients[k]? = some p) (hq : p.length = q.length + 1) :
    totalLength (clients.set k q) + 1 = totalLength clients := by
  induction clients generalizing k with
  | nil => cases hk
  | cons a clients ih =>
    cases k with
    | zero =>
      cases hk
      rw [List.set_cons_zero, totalLength, totalLength, hq]
      omega
    | succ k => rw [List.set_cons_succ, totalLength, totalLength, Nat.add_assoc, ih hk]

namespace InTurn

variable {clients left : List (Client MockEnclave α)}
  {sessions : List (Session MockEnclave (Nat × ChannelStep))}

/-- What a client ends with is not changed by a session of anybody. -/
theorem map_alone (h : InTurn Session.IsEmulated clients sessions left) :
    left.map Client.alone = clients.map Client.alone := by
  induction h with
  | none => rfl
  | one _ t next due client ih =>
    rw [← ih, List.map_set]
    refine List.ext_getElem? (fun i => ?_)
    by_cases hi : t.caller = i
    · subst hi
      rw [getElem?_set_map client, List.getElem?_map, client, due]
      rfl
    · rw [List.getElem?_set_ne hi]

/-- **All sessions are accounted for**: those that were had and those that are
left. -/
theorem length_add_totalLength (h : InTurn Session.IsEmulated clients sessions left) :
    sessions.length + Client.totalLength left = Client.totalLength clients := by
  induction h with
  | none => exact Nat.zero_add _
  | one _ t next due client ih =>
    have hlength : (Client.ask t.channel t.exchange next).length = (next t.answer).length + 1 := by
      rw [due]
      rfl
    rw [← ih, ← Client.totalLength_set client hlength, List.length_append, List.length_singleton]
    omega

/-- Four steps make a session. -/
theorem length_flatMap_events (h : InTurn Session.IsEmulated clients sessions left) :
    (sessions.flatMap Session.events).length = 4 * sessions.length := by
  have hdue := h.due
  clear h
  induction sessions with
  | nil => rfl
  | cons t sessions ih =>
    have ht : t.events.length = 4 := by
      rw [hdue t List.mem_cons_self]
      rfl
    rw [List.flatMap_cons, List.length_append, ht, List.length_cons,
      ih fun t ht => hdue t (List.mem_cons_of_mem _ ht)]
    omega

end InTurn

namespace Sharing

/-! ## The steps of a client -/

section Step

variable {s : Sharing α} {k : Nat} {e : MockEnclave} {x : Exchange}
  {next : Except Error Bytes → Client MockEnclave α}

/-- A client that is done takes no step. -/
theorem step_done {a : α} (hk : s.callers[k]? = some (Client.done a).steps) :
    s.step k = none := by
  unfold step
  rw [hk]
  rfl

/-- **Outside of a session, a client can only open one**, and not while another
is open. -/
theorem step_ask (hk : s.callers[k]? = some (Client.ask e x next).steps) :
    s.step k = if s.holder.isSome then none
      else some { s.goOn k .openSession (Client.opened e x next) with holder := some k } := by
  rw [Client.steps_ask] at hk
  unfold step
  rw [hk]

/-- **The write of a session is taken whole**, and its report data is held. -/
theorem step_opened (hk : s.callers[k]? = some (Client.opened e x next)) :
    s.step k = some { s.goOn k (.write .userReportData x.data.toBytes (.ok 64))
        (.read e x.file x.limit (Client.leave e next)) with held := x.data } := by
  unfold Client.opened at hk
  unfold step
  rw [hk]
  dsimp only
  rw [MockEnclave.accept_toBytes]
  rfl

/-- **The read of a session brings what is due**, if the report data held is
that of the session. -/
theorem step_bound (hheld : s.held = x.data)
    (hk : s.callers[k]? = some (.read e x.file x.limit (Client.leave e next))) :
    s.step k = some (s.goOn k (.read x.file x.limit (.ok (e.answer x)))
      (Client.leave e next (.ok (e.answer x)))) := by
  unfold step
  rw [hk, hheld]
  rfl

/-- **Closing its session makes a client free again.** -/
theorem step_answered {answer : Except Error Bytes} (hholder : s.holder = some k)
    (hk : s.callers[k]? = some (Client.leave e next answer)) :
    s.step k = some { s.goOn k .closeSession (next answer).steps with holder := none } := by
  unfold Client.leave at hk
  unfold step
  rw [hk]
  dsimp only
  rw [if_pos hholder]

/-- Every step is logged. -/
theorem length_log_step {s' : Sharing α} (h : s.step k = some s') :
    s'.log.length = s.log.length + 1 := by
  unfold step at h
  split at h
  · cases h
  · cases h
  · split at h
    · cases h
    · cases h
      simp [goOn]
  · cases h
    simp [goOn]
  · cases h
    simp [goOn]
  · cases h
    simp [goOn]

end Step

/-! ## The system between and within sessions -/

/-- **How far a caller has got in its session**: the steps it has taken, and
what it has left to do. From its write on, the report data held is its own. -/
inductive Stage (held : ReportData) (k : Nat) (e : MockEnclave) (x : Exchange)
    (next : Except Error Bytes → Client MockEnclave α) :
    List (Nat × ChannelStep) → Steps MockEnclave α → Prop
  | opened : Stage held k e x next ((e.session k x).events.take 1) (Client.opened e x next)
  | bound (hheld : held = x.data) : Stage held k e x next
      ((e.session k x).events.take 2) (.read e x.file x.limit (Client.leave e next))
  | answered : Stage held k e x next ((e.session k x).events.take 3)
      (Client.leave e next (.ok (e.answer x)))

/-- **The system as clients that have had some sessions.** Either no session is
open, or one client is on its way through one. -/
inductive Serial (s : Sharing α) (sessions : List (Session MockEnclave (Nat × ChannelStep)))
    (clients : List (Client MockEnclave α)) : Prop
  | idle (holder : s.holder = none) (callers : s.callers = clients.map Client.steps)
    (log : s.log = sessions.flatMap Session.events)
  | busy (k : Nat) (e : MockEnclave) (x : Exchange)
    (next : Except Error Bytes → Client MockEnclave α) (taken : List (Nat × ChannelStep))
    (rest : Steps MockEnclave α) (holder : s.holder = some k)
    (client : clients[k]? = some (.ask e x next)) (stage : Stage s.held k e x next taken rest)
    (callers : s.callers = (clients.map Client.steps).set k rest)
    (log : s.log = sessions.flatMap Session.events ++ taken)

namespace Serial

variable {s s' : Sharing α} {sessions : List (Session MockEnclave (Nat × ChannelStep))}
  {clients : List (Client MockEnclave α)}

/-- Before the first step. -/
theorem start (held : ReportData) (clients : List (Client MockEnclave α)) :
    Serial (start held (clients.map Client.steps)) [] clients :=
  .idle rfl rfl rfl

/-- **What is not in the session cannot do anything but open one**, and that
only while none is open. -/
theorem eq_of_step_client {j : Nat} (hj : s.callers[j]? = clients[j]?.map Client.steps)
    (hstep : s.step j = some s') :
    s.holder = none ∧ ∃ e x next, clients[j]? = some (.ask e x next)
      ∧ s' = { s.goOn j .openSession (Client.opened e x next) with holder := some j } := by
  cases hclient : clients[j]? with
  | none =>
    unfold Sharing.step at hstep
    rw [hj, hclient] at hstep
    cases hstep
  | some p =>
    rw [hclient] at hj
    cases p with
    | done a =>
      rw [step_done hj] at hstep
      cases hstep
    | ask e x next =>
      rw [step_ask hj] at hstep
      cases hholder : s.holder with
      | some k =>
        rw [hholder] at hstep
        cases hstep
      | none =>
        rw [hholder] at hstep
        cases hstep
        exact ⟨rfl, e, x, next, rfl, rfl⟩

/-- **One step, seen from between the sessions**: nothing, or one more session
that one client has had. -/
theorem step {j : Nat} (h : Serial s sessions clients) (hstep : s.step j = some s') :
    Serial s' sessions clients
      ∨ ∃ e x next, clients[j]? = some (.ask e x next)
        ∧ Serial s' (sessions ++ [e.session j x]) (clients.set j (next (.ok (e.answer x)))) := by
  cases h with
  | idle holder callers log =>
    have hj : s.callers[j]? = clients[j]?.map Client.steps := by rw [callers, List.getElem?_map]
    obtain ⟨-, e, x, next, client, rfl⟩ := eq_of_step_client hj hstep
    refine .inl (.busy j e x next _ _ rfl client .opened ?_ ?_)
    · exact congrArg (List.set · j _) callers
    · exact congrArg (· ++ _) log
  | busy k e x next taken rest holder client stage callers log =>
    by_cases hjk : j = k
    case neg =>
      -- everybody else waits for the session, or is done
      have hj : s.callers[j]? = clients[j]?.map Client.steps := by
        rw [callers, List.getElem?_set_ne (Ne.symm hjk), List.getElem?_map]
      rw [(eq_of_step_client hj hstep).1] at holder
      cases holder
    subst hjk
    have hj : s.callers[j]? = some rest := by rw [callers, getElem?_set_map client]
    have hset (rest' : Steps MockEnclave α) :
        s.callers.set j rest' = (clients.map Client.steps).set j rest' := by
      rw [callers, List.set_set]
    have hlog (taken' : Nat × ChannelStep) :
        s.log ++ [taken'] = sessions.flatMap Session.events ++ (taken ++ [taken']) := by
      rw [log, List.append_assoc]
    cases stage with
    | opened =>
      rw [step_opened hj] at hstep
      cases hstep
      exact .inl (.busy j e x next _ _ holder client (.bound rfl) (hset _) (hlog _))
    | bound hheld =>
      rw [step_bound hheld hj] at hstep
      cases hstep
      exact .inl (.busy j e x next _ _ holder client .answered (hset _) (hlog _))
    | answered =>
      rw [step_answered holder hj] at hstep
      cases hstep
      refine .inr ⟨e, x, next, client, .idle rfl ?_ ?_⟩
      · rw [List.map_set]
        exact hset _
      · rw [List.flatMap_append]
        exact hlog _

/-- **A schedule comes to sessions in turn.** -/
theorem run {clients₀ : List (Client MockEnclave α)} (h : Serial s sessions clients)
    (turns : InTurn Session.IsEmulated clients₀ sessions clients) (schedule : List Nat) :
    ∃ sessions' clients', Serial (s.run schedule) sessions' clients'
      ∧ InTurn Session.IsEmulated clients₀ sessions' clients' := by
  induction schedule generalizing s sessions clients with
  | nil => exact ⟨sessions, clients, h, turns⟩
  | cons j schedule ih =>
    rw [run_cons]
    cases hstep : s.step j with
    | none => exact ih h turns
    | some s' =>
      rcases h.step hstep with h' | ⟨e, x, next, client, h'⟩
      · exact ih h' turns
      · exact ih h' (turns.one (e.session j x) next rfl client)

/-- **What was logged is the beginning of whole sessions in turn.** -/
theorem log_isPrefix {clients₀ : List (Client MockEnclave α)} (h : Serial s sessions clients)
    (turns : InTurn Session.IsEmulated clients₀ sessions clients) :
    ∃ all left, InTurn Session.IsEmulated clients₀ all left
      ∧ s.log <+: all.flatMap Session.events := by
  cases h with
  | idle holder callers log => exact ⟨sessions, clients, turns, log ▸ List.prefix_rfl⟩
  | busy k e x next taken rest holder client stage callers log =>
    refine ⟨_, _, turns.one (e.session k x) next rfl client, ?_⟩
    rw [log, List.flatMap_append, List.prefix_append_right_inj, List.flatMap_singleton]
    cases stage <;> exact List.take_prefix _ _

/-! ## Nobody waits forever -/

/-- **While some client is not done, some client can take a step**: the one in
the session, or any that wants one. -/
theorem exists_step (h : Serial s sessions clients) {k : Nat} {e : MockEnclave} {x : Exchange}
    {next : Except Error Bytes → Client MockEnclave α} (hk : clients[k]? = some (.ask e x next)) :
    ∃ j s', s.step j = some s' := by
  cases h with
  | idle holder callers log =>
    have hj : s.callers[k]? = some (Client.ask e x next).steps := by
      rw [callers, List.getElem?_map, hk]
      rfl
    exact ⟨k, _, by rw [step_ask hj, holder]; rfl⟩
  | busy j e' x' next' taken rest holder client stage callers log =>
    have hj : s.callers[j]? = some rest := by rw [callers, getElem?_set_map client]
    cases stage with
    | opened => exact ⟨j, _, step_opened hj⟩
    | bound hheld => exact ⟨j, _, step_bound hheld hj⟩
    | answered => exact ⟨j, _, step_answered holder hj⟩

/-- **There is an end to the steps**: four for every session. -/
theorem length_log_le {clients₀ : List (Client MockEnclave α)} (h : Serial s sessions clients)
    (turns : InTurn Session.IsEmulated clients₀ sessions clients) :
    s.log.length ≤ 4 * Client.totalLength clients₀ := by
  cases h with
  | idle holder callers log =>
    rw [log, turns.length_flatMap_events, ← turns.length_add_totalLength]
    omega
  | busy k e x next taken rest holder client stage callers log =>
    have htaken : taken.length ≤ 4 := by
      cases stage <;> exact List.length_take_le' _ _
    have hone := (turns.one (e.session k x) next rfl client).length_add_totalLength
    rw [List.length_append, List.length_singleton] at hone
    rw [log, List.length_append, turns.length_flatMap_events]
    omega

/-- A client that is done is a caller that is done. -/
theorem result?_of_done (h : Serial s sessions clients) {k : Nat} {a : α}
    (hk : clients[k]? = some (.done a)) : s.result? k = some a := by
  have hcaller : s.callers[k]? = some (.done a) := by
    cases h with
    | idle holder callers log =>
      rw [callers, List.getElem?_map, hk]
      rfl
    | busy j e x next taken rest holder client stage callers log =>
      have hne : j ≠ k := by
        rintro rfl
        rw [hk] at client
        cases client
      rw [callers, List.getElem?_set_ne hne, List.getElem?_map, hk]
      rfl
  unfold result?
  rw [hcaller]

/-- **A caller that is done is a client that is done.** -/
theorem done_of_result? (h : Serial s sessions clients) {k : Nat} {a : α}
    (hresult : s.result? k = some a) : clients[k]? = some (.done a) := by
  have hcaller : s.callers[k]? = some (.done a) := by
    unfold result? at hresult
    split at hresult
    · next hk =>
      cases hresult
      exact hk
    · cases hresult
  have hclient (hk : s.callers[k]? = clients[k]?.map Client.steps) :
      clients[k]? = some (.done a) := by
    rw [hcaller] at hk
    obtain ⟨p, hp, hsteps⟩ := Option.map_eq_some_iff.mp hk.symm
    rwa [Client.eq_done_of_steps hsteps] at hp
  cases h with
  | idle holder callers log =>
    exact hclient (by rw [callers, List.getElem?_map])
  | busy j e x next taken rest holder client stage callers log =>
    by_cases hjk : j = k
    case neg => exact hclient (by rw [callers, List.getElem?_set_ne hjk, List.getElem?_map])
    -- who is in the session has a step to take
    subst hjk
    rw [callers, getElem?_set_map client] at hcaller
    cases hcaller
    cases stage

/-- **Everybody can come to an end**, from wherever a schedule has led. -/
theorem exists_run {clients₀ : List (Client MockEnclave α)} (h : Serial s sessions clients)
    (turns : InTurn Session.IsEmulated clients₀ sessions clients) :
    ∃ more, ∀ k < clients₀.length, (s.run more).result? k ≠ none := by
  induction hn : 4 * Client.totalLength clients₀ - s.log.length
    using Nat.strongRecOn generalizing s sessions clients with
  | _ n ih =>
    by_cases hask : ∃ (k : Nat) (e : MockEnclave) (x : Exchange)
      (next : Except Error Bytes → Client MockEnclave α), clients[k]? = some (.ask e x next)
    case pos =>
      obtain ⟨k, e, x, next, hk⟩ := hask
      obtain ⟨j, s', hstep⟩ := h.exists_step hk
      obtain ⟨sessions', clients', h', turns'⟩ := h.run turns [j]
      rw [run_cons, hstep, run_nil, Option.getD_some] at h'
      have hlog := length_log_step hstep
      have hle := h'.length_log_le turns'
      obtain ⟨more, hmore⟩ := ih _ (by omega) h' turns' rfl
      exact ⟨j :: more, by rwa [run_cons, hstep, Option.getD_some]⟩
    case neg =>
      refine ⟨[], fun k hk => ?_⟩
      rw [← turns.length_left] at hk
      cases hclient : clients[k] with
      | done a =>
        rw [run_nil, h.result?_of_done (by rw [List.getElem?_eq_getElem hk, hclient])]
        exact Option.some_ne_none a
      | ask e x next =>
        exact absurd ⟨k, e, x, next, by rw [List.getElem?_eq_getElem hk, hclient]⟩ hask

end Serial

end Sharing

end Enclave
