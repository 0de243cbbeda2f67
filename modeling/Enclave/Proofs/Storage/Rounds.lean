import Enclave.Storage.Calls
import Mathlib.Data.Set.Finite.Lattice
import Mathlib.Order.Monotone.Basic

/-!
# Rounds of transfers

A round of a transfer comes to one of six things (`Round`), and every fact about whole
transfers is first one about a round. What rounds keep is `Regular`: the bytes that are
held are those that the calls have moved, in their order, and every call was for what was
left when it was made. A transfer that has ended can have done so in three ways only
(`Concluded`).

That it ends is due to the bytes that are left, which become fewer, and to the failures
that only delay, of which there must not be infinitely many (`exists_ends`). Where in the
run they stand does not matter. Of two files that differ in such failures alone, one
transfer is behind the other one, now and then by a round that only delays, and both come
to the same (`Postpones.ends_iff`).
-/

namespace Enclave.Transfer

/-! ## Calls and ends -/

namespace Call

/-- The bytes that a call moved. -/
def moved (call : Call) : Bytes :=
  match call.answer with
  | .ok piece => piece
  | .error _ => []

/-- **A call that another one follows**, if there is something left to move. -/
def GoesOn (call : Call) : Prop :=
  match call.answer with
  | .ok piece => piece ≠ []
  | .error e => e.isTransient

end Call

/-- **The bytes that some calls moved**, in their order. -/
def movedBy (calls : List Call) : Bytes := calls.flatMap Call.moved

theorem movedBy_concat (calls : List Call) (call : Call) :
    movedBy (calls ++ [call]) = movedBy calls ++ call.moved := by
  unfold movedBy
  rw [List.flatMap_append, List.flatMap_singleton]

/-- **How a transfer can end**, by its calls, and with what. -/
inductive Concluded (goal : Nat) : List Call → Except IoError Bytes → Prop
  /-- All bytes are moved. -/
  | full {calls : List Call} (goesOn : ∀ call ∈ calls, call.GoesOn)
    (length : (movedBy calls).length = goal) : Concluded goal calls (.ok (movedBy calls))
  /-- The last call moved none. -/
  | dry {calls : List Call} (goesOn : ∀ call ∈ calls, call.GoesOn) (asked : Nat) :
    Concluded goal (calls ++ [⟨asked, .ok []⟩]) (.ok (movedBy calls))
  /-- The last call failed for good. -/
  | broken {calls : List Call} (goesOn : ∀ call ∈ calls, call.GoesOn) (asked : Nat)
    {e : IoError} (lasting : ¬ e.isTransient) :
    Concluded goal (calls ++ [⟨asked, .error e⟩]) (.error e)

/-! ## Rounds -/

section Receive

variable (s : State) (asked : Nat) {e : IoError}

theorem receive_of_transient (transient : e.isTransient) :
    s.receive asked (.error e) = { s with calls := s.calls ++ [⟨asked, .error e⟩] } :=
  if_pos transient

theorem receive_of_lasting (lasting : ¬ e.isTransient) :
    s.receive asked (.error e)
      = { s with calls := s.calls ++ [⟨asked, .error e⟩], status := .failed e } :=
  if_neg lasting

/-- Every call is remembered. -/
theorem calls_receive (answer : Except IoError Bytes) :
    (s.receive asked answer).calls = s.calls ++ [⟨asked, answer⟩] := by
  rcases answer with e | _ | ⟨b, piece⟩
  · by_cases transient : e.isTransient
    · rw [receive_of_transient s asked transient]
    · rw [receive_of_lasting s asked transient]
  · rfl
  · rfl

/-- The same answer has the same effect, whatever the calls were before. -/
theorem receive_congr {s t : State} (hmoved : t.moved = s.moved) (hstatus : t.status = s.status)
    (asked : Nat) (answer : Except IoError Bytes) :
    (t.receive asked answer).moved = (s.receive asked answer).moved
      ∧ (t.receive asked answer).status = (s.receive asked answer).status := by
  rcases answer with e | _ | ⟨b, piece⟩
  · by_cases transient : e.isTransient
    · rw [receive_of_transient s asked transient, receive_of_transient t asked transient]
      exact ⟨hmoved, hstatus⟩
    · rw [receive_of_lasting s asked transient, receive_of_lasting t asked transient]
      exact ⟨hmoved, rfl⟩
  · exact ⟨hmoved, rfl⟩
  · exact ⟨congrArg (· ++ b :: piece) hmoved, hstatus⟩

end Receive

/-- **What a round can come to.** -/
inductive Round {goal : Nat} (call : Calls goal) (s : State) : State → Prop
  /-- The transfer was at its end. -/
  | ended (ended : s.status ≠ .going) : Round call s s
  /-- It is, since nothing is left to move. -/
  | full (going : s.status = .going) (full : goal ≤ s.moved.length) :
    Round call s { s with status := .done }
  /-- A call moved nothing. -/
  | dry (going : s.status = .going) (room : s.moved.length < goal)
    {piece : { piece : Bytes // piece.length ≤ goal - s.moved.length }} (empty : piece.val = [])
    (answer : call s.calls.length s.moved = .ok piece) :
    Round call s
      { s with calls := s.calls ++ [⟨goal - s.moved.length, .ok []⟩], status := .done }
  /-- A call moved some bytes. -/
  | moves (going : s.status = .going) (room : s.moved.length < goal)
    {piece : { piece : Bytes // piece.length ≤ goal - s.moved.length }} (nonempty : piece.val ≠ [])
    (answer : call s.calls.length s.moved = .ok piece) :
    Round call s
      { s with
        calls := s.calls ++ [⟨goal - s.moved.length, .ok piece.val⟩]
        moved := s.moved ++ piece.val }
  /-- A call failed for now. -/
  | delay (going : s.status = .going) (room : s.moved.length < goal) {e : IoError}
    (transient : e.isTransient) (answer : call s.calls.length s.moved = .error e) :
    Round call s { s with calls := s.calls ++ [⟨goal - s.moved.length, .error e⟩] }
  /-- A call failed for good. -/
  | broken (going : s.status = .going) (room : s.moved.length < goal) {e : IoError}
    (lasting : ¬ e.isTransient) (answer : call s.calls.length s.moved = .error e) :
    Round call s
      { s with calls := s.calls ++ [⟨goal - s.moved.length, .error e⟩], status := .failed e }

variable {goal : Nat} {call : Calls goal} {s t : State}

theorem step_of_ended (ended : s.status ≠ .going) : step call s = s := if_pos ended

theorem step_of_full (going : s.status = .going) (full : goal ≤ s.moved.length) :
    step call s = { s with status := .done } := by
  unfold step
  rw [if_neg (not_not_intro going), if_pos full]

theorem step_of_room (going : s.status = .going) (room : s.moved.length < goal) :
    step call s
      = s.receive (goal - s.moved.length) ((call s.calls.length s.moved).map Subtype.val) := by
  unfold step
  rw [if_neg (not_not_intro going), if_neg (Nat.not_le.mpr room)]

/-- **A round comes to no other thing.** -/
theorem round_step (call : Calls goal) (s : State) : Round call s (step call s) := by
  by_cases going : s.status = .going
  case neg =>
    rw [step_of_ended going]
    exact .ended going
  by_cases full : goal ≤ s.moved.length
  case pos =>
    rw [step_of_full going full]
    exact .full going full
  have room := Nat.lt_of_not_le full
  rw [step_of_room going room]
  cases answer : call s.calls.length s.moved with
  | ok piece =>
    obtain ⟨_ | ⟨b, rest⟩, hpiece⟩ := piece
    · exact .dry going room rfl answer
    · exact .moves going room (List.cons_ne_nil b rest) answer
  | error e =>
    by_cases transient : e.isTransient
    · exact receive_of_transient s _ transient ▸ .delay going room transient answer
    · exact receive_of_lasting s _ transient ▸ .broken going room transient answer

/-! ## What rounds keep -/

/-- **Calls as a transfer makes them**: each one as long as bytes are missing and for all
that are, and it is answered by the file. -/
def Made (call : Calls goal) (calls : List Call) : Prop :=
  ∀ n c, calls[n]? = some c →
    (movedBy (calls.take n)).length < goal
      ∧ c = ⟨goal - (movedBy (calls.take n)).length,
          (call n (movedBy (calls.take n))).map Subtype.val⟩

/-- One more call that is made so. -/
theorem Made.concat {calls : List Call} {answer : Except IoError Bytes} (h : Made call calls)
    (room : (movedBy calls).length < goal)
    (hanswer : (call calls.length (movedBy calls)).map Subtype.val = answer) :
    Made call (calls ++ [⟨goal - (movedBy calls).length, answer⟩]) := by
  intro n c hc
  rcases Nat.lt_or_ge n calls.length with hn | hn
  · rw [List.take_append_of_le_length hn.le]
    exact h n c (List.getElem?_append_left hn ▸ hc)
  · rw [List.getElem?_append_right hn, List.getElem?_singleton] at hc
    split at hc
    case isFalse => cases hc
    case isTrue hlast =>
      cases hc
      obtain rfl : n = calls.length := by omega
      rw [List.take_left, hanswer]
      exact ⟨room, rfl⟩

/-- **A transfer in order**, at its end or before it. -/
structure Regular (call : Calls goal) (s : State) : Prop where
  /-- It holds what its calls have moved. -/
  moved : s.moved = movedBy s.calls
  /-- This is no more than it wants. -/
  length_le : s.moved.length ≤ goal
  /-- Its calls are those that it has to make. -/
  made : Made call s.calls
  /-- As long as it is not at its end, no call was a reason to stop. -/
  goesOn : s.status = .going → ∀ c ∈ s.calls, c.GoesOn
  /-- And when it is, there is such a reason. -/
  concluded : s.status ≠ .going → Concluded goal s.calls s.collected

theorem regular_start (call : Calls goal) : Regular call {} where
  moved := rfl
  length_le := Nat.zero_le goal
  made := fun _ _ hc => nomatch hc
  goesOn := fun _ _ hc => nomatch hc
  concluded := fun h => absurd rfl h

/-- **A round keeps a transfer in order.** -/
theorem Round.regular (h : Round call s t) (hs : Regular call s) : Regular call t := by
  have hmade {answer : Except IoError Bytes} (room : s.moved.length < goal)
      (hanswer : (call s.calls.length s.moved).map Subtype.val = answer) :
      Made call (s.calls ++ [⟨goal - s.moved.length, answer⟩]) := by
    rw [hs.moved] at room hanswer ⊢
    exact hs.made.concat room hanswer
  -- a call that moves nothing adds nothing to what is held
  have hmoved {last : Call} (h : last.moved = []) : s.moved = movedBy (s.calls ++ [last]) := by
    rw [movedBy_concat, h, List.append_nil]
    exact hs.moved
  have hgoesOn (going : s.status = .going) {last : Call} (h : last.GoesOn) :
      ∀ c ∈ s.calls ++ [last], c.GoesOn := by
    intro c hc
    rcases List.mem_append.mp hc with hc | hc
    · exact hs.goesOn going c hc
    · exact List.mem_singleton.mp hc ▸ h
  cases h with
  | ended ended => exact hs
  | full going full =>
    have hlength : (movedBy s.calls).length = goal := by
      rw [← hs.moved]
      exact Nat.le_antisymm hs.length_le full
    refine ⟨hs.moved, hs.length_le, hs.made, nofun, fun _ => ?_⟩
    show Concluded goal s.calls (.ok s.moved)
    rw [hs.moved]
    exact .full (hs.goesOn going) hlength
  | dry going room empty answer =>
    refine ⟨hmoved rfl, hs.length_le, hmade room ?_, nofun, fun _ => ?_⟩
    · rw [answer]
      exact congrArg Except.ok empty
    · show Concluded goal _ (.ok s.moved)
      rw [hs.moved]
      exact .dry (hs.goesOn going) _
  | @moves going room piece nonempty answer =>
    refine ⟨?_, ?_, hmade room ?_, fun _ => hgoesOn going nonempty, fun ended => absurd going ended⟩
    · rw [movedBy_concat, ← hs.moved]
      rfl
    · have hpiece := piece.property
      have hle := hs.length_le
      show (s.moved ++ piece.val).length ≤ goal
      rw [List.length_append]
      omega
    · rw [answer]
      rfl
  | delay going room transient answer =>
    refine ⟨hmoved rfl, hs.length_le, hmade room ?_, fun _ => hgoesOn going transient,
      fun ended => absurd going ended⟩
    rw [answer]
    rfl
  | broken going room lasting answer =>
    refine ⟨hmoved rfl, hs.length_le, hmade room ?_, nofun,
      fun _ => .broken (hs.goesOn going) _ lasting⟩
    rw [answer]
    rfl

/-- **A transfer is in order after any number of rounds.** -/
theorem regular_after (call : Calls goal) (rounds : Nat) : Regular call (after call rounds) := by
  induction rounds with
  | zero => exact regular_start call
  | succ rounds ih => exact (round_step call _).regular ih

theorem Ends.regular (h : Ends call s) : Regular call s := by
  obtain ⟨-, rounds, rfl⟩ := h
  exact regular_after call rounds

/-! ## Transfers end -/

/-- **The calls of a transfer that fail for now**, by their numbers. -/
def delays (call : Calls goal) : Set Nat :=
  {n | ∃ rounds asked e, (after call rounds).calls[n]? = some ⟨asked, .error e⟩ ∧ e.isTransient}

/-- **What is left of a transfer**: the bytes to be moved, and the calls up to a number. -/
def left (goal bound : Nat) (s : State) : Nat :=
  (goal - s.moved.length) + (bound - s.calls.length)

/-- **A round brings a transfer nearer to its end.** -/
theorem Round.progress (h : Round call s t) {bound : Nat}
    (hbound : ∀ asked e, t.calls[s.calls.length]? = some ⟨asked, .error e⟩ → e.isTransient →
      s.calls.length < bound) :
    t.status ≠ .going ∨ left goal bound t < left goal bound s := by
  cases h with
  | ended ended => exact .inl ended
  | full => exact .inl nofun
  | dry => exact .inl nofun
  | @moves going room piece nonempty answer =>
    have hpiece : 0 < piece.val.length := List.length_pos_iff.mpr nonempty
    right
    show goal - (s.moved ++ piece.val).length + (bound - (s.calls ++ [_]).length)
      < left goal bound s
    unfold left
    rw [List.length_append, List.length_append]
    omega
  | delay going room transient answer =>
    have hcalls := hbound _ _ List.getElem?_concat_length transient
    right
    show goal - s.moved.length + (bound - (s.calls ++ [_]).length) < left goal bound s
    unfold left
    rw [List.length_append, List.length_singleton]
    omega
  | broken => exact .inl nofun

/-- **A transfer ends** if only finitely many of its calls fail for now. -/
theorem exists_ends (h : (delays call).Finite) : ∃ s, Ends call s := by
  obtain ⟨last, hlast⟩ := h.bddAbove
  have hbound : ∀ n ∈ delays call, n < last + 1 := fun n hn => Nat.lt_succ_of_le (hlast hn)
  have hends (more rounds : Nat) (hmore : left goal (last + 1) (after call rounds) < more) :
      ∃ s, Ends call s := by
    induction more generalizing rounds with
    | zero => cases hmore
    | succ more ih =>
      have hdelay (asked : Nat) (e : IoError)
          (hcall : (after call (rounds + 1)).calls[(after call rounds).calls.length]?
            = some ⟨asked, .error e⟩) (transient : e.isTransient) :
          (after call rounds).calls.length < last + 1 :=
        hbound _ ⟨rounds + 1, asked, e, hcall, transient⟩
      rcases (round_step call (after call rounds)).progress hdelay with ended | hless
      · exact ⟨_, ended, rounds + 1, rfl⟩
      · exact ih (rounds + 1) (Nat.lt_of_lt_of_le hless (Nat.le_of_lt_succ hmore))
  exact hends _ 0 (Nat.lt_succ_self _)

/-- After its end a transfer stays as it is. -/
theorem after_add_of_ended {rounds : Nat} (ended : (after call rounds).status ≠ .going)
    (more : Nat) : after call (rounds + more) = after call rounds := by
  induction more with
  | zero => rfl
  | succ more ih =>
    show step call (after call (rounds + more)) = _
    rw [ih, step_of_ended ended]

/-- **A transfer ends in one state.** -/
theorem Ends.unique (hs : Ends call s) (ht : Ends call t) : s = t := by
  obtain ⟨hs, rounds, rfl⟩ := hs
  obtain ⟨ht, rounds', rfl⟩ := ht
  rcases Nat.le_total rounds rounds' with hle | hle
  · obtain ⟨more, rfl⟩ := Nat.exists_eq_add_of_le hle
    exact (after_add_of_ended hs more).symm
  · obtain ⟨more, rfl⟩ := Nat.exists_eq_add_of_le hle
    exact after_add_of_ended ht more

theorem existsUnique_ends (h : (delays call).Finite) : ∃! s, Ends call s := by
  obtain ⟨s, hs⟩ := exists_ends h
  exact ⟨s, hs, fun t ht => ht.unique hs⟩

/-! ## Failures that only delay -/

/-- **A file that answers as another one does, but now and then with a delay.** The calls
that the other one answers have their places, in order, among those that it answers. -/
structure Postpones (place : Nat → Nat) {α : Type} {β : α → Type}
    (file slower : Nat → (a : α) → Except IoError (β a)) : Prop where
  inOrder : StrictMono place
  /-- At these places it answers as the other one. -/
  answers : ∀ n, slower (place n) = file n
  /-- At all others it fails for now. -/
  fails : ∀ k, (∀ n, place n ≠ k) → ∀ a, ∃ e, slower k a = .error e ∧ e.isTransient

/-- **A transfer that is behind another one**: it has come as far, and is on its way to
the place of the next call. -/
structure Behind (place : Nat → Nat) (s t : State) : Prop where
  moved : t.moved = s.moved
  status : t.status = s.status
  /-- It has made all calls of the other transfer. -/
  past : ∀ n < s.calls.length, place n < t.calls.length
  /-- It has not made the next one. -/
  next : t.calls.length ≤ place s.calls.length

section Delay

variable {fast slow : Calls goal} {place : Nat → Nat}

theorem behind_start (place : Nat → Nat) : Behind place {} {} where
  moved := rfl
  status := rfl
  past := fun _ hn => nomatch hn
  next := Nat.zero_le _

theorem Behind.collected (h : Behind place s t) : t.collected = s.collected := by
  unfold State.collected
  rw [h.moved, h.status]

/-- **A round of the transfer that is behind** is one of the other transfer too, or else
it comes nearer to the place of the next call. -/
theorem Behind.round (h : Behind place s t) (hslow : Postpones place fast slow) :
    Behind place (step fast s) (step slow t)
      ∨ Behind place s (step slow t) ∧ t.calls.length < (step slow t).calls.length := by
  by_cases going : s.status = .going
  case neg =>
    have ended : t.status ≠ .going := h.status ▸ going
    rw [step_of_ended going, step_of_ended ended]
    exact .inl h
  have hgoing : t.status = .going := h.status.trans going
  by_cases full : goal ≤ s.moved.length
  case pos =>
    rw [step_of_full going full, step_of_full hgoing (h.moved ▸ full)]
    exact .inl ⟨h.moved, rfl, h.past, h.next⟩
  have room := Nat.lt_of_not_le full
  rw [step_of_room going room, step_of_room hgoing (h.moved ▸ room), h.moved]
  rcases Nat.eq_or_lt_of_le h.next with hnext | hnext
  · -- the next call is due
    rw [hnext, hslow.answers]
    obtain ⟨hmoved, hstatus⟩ := receive_congr h.moved h.status (goal - s.moved.length)
      ((fast s.calls.length s.moved).map Subtype.val)
    refine .inl ⟨hmoved, hstatus, fun n hn => ?_, ?_⟩
    · rw [calls_receive, List.length_append] at hn ⊢
      have hle := hslow.inOrder.monotone (Nat.le_of_lt_succ hn)
      rw [hnext]
      exact Nat.lt_succ_of_le hle
    · have hlt := hslow.inOrder (Nat.lt_succ_self s.calls.length)
      rw [calls_receive, calls_receive, List.length_append, List.length_append, hnext]
      exact hlt
  · -- it is not, and this is not the place of an earlier one
    have hnone (n : Nat) : place n ≠ t.calls.length := by
      rcases Nat.lt_or_ge n s.calls.length with hn | hn
      · exact Nat.ne_of_lt (h.past n hn)
      · exact Nat.ne_of_gt (Nat.lt_of_lt_of_le hnext (hslow.inOrder.monotone hn))
    obtain ⟨e, answer, transient⟩ := hslow.fails _ hnone s.moved
    have hcalls : (t.calls ++ [(⟨goal - s.moved.length, .error e⟩ : Call)]).length
        = t.calls.length + 1 := List.length_append
    rw [answer, Except.map, receive_of_transient t _ transient]
    refine .inr ⟨⟨h.moved, h.status, fun n hn => ?_, ?_⟩, ?_⟩
    · exact hcalls ▸ Nat.lt_succ_of_lt (h.past n hn)
    · exact hcalls ▸ hnext
    · exact hcalls ▸ Nat.lt_succ_self _

/-- **What is behind catches up.** -/
theorem Behind.exists_round (hslow : Postpones place fast slow) {rounds : Nat}
    (h : Behind place s (after slow rounds)) :
    ∃ rounds', Behind place (step fast s) (after slow rounds') := by
  induction hgap : place s.calls.length - (after slow rounds).calls.length
    using Nat.strong_induction_on generalizing rounds with
  | _ gap ih =>
    rcases h.round hslow with hstep | ⟨hstep, hless⟩
    · exact ⟨rounds + 1, hstep⟩
    · have hahead : Behind place s (after slow (rounds + 1)) := hstep
      have hnext := hstep.next
      refine ih _ ?_ hahead rfl
      show place s.calls.length - (step slow (after slow rounds)).calls.length < gap
      omega

/-- All that a transfer comes to, the slower one comes to as well. -/
theorem exists_behind (hslow : Postpones place fast slow) (rounds : Nat) :
    ∃ rounds', Behind place (after fast rounds) (after slow rounds') := by
  induction rounds with
  | zero => exact ⟨0, behind_start place⟩
  | succ rounds ih =>
    obtain ⟨rounds', h⟩ := ih
    exact h.exists_round hslow

/-- And it comes to nothing else. -/
theorem exists_ahead (hslow : Postpones place fast slow) (rounds : Nat) :
    ∃ rounds', Behind place (after fast rounds') (after slow rounds) := by
  induction rounds with
  | zero => exact ⟨0, behind_start place⟩
  | succ rounds ih =>
    obtain ⟨rounds', h⟩ := ih
    rcases h.round hslow with hstep | ⟨hstep, -⟩
    · exact ⟨rounds' + 1, hstep⟩
    · exact ⟨rounds', hstep⟩

/-- **Delays change no result**: a transfer ends with it exactly if the other one does. -/
theorem Postpones.ends_iff (hslow : Postpones place fast slow)
    (result : Except IoError Bytes) :
    (∃ s, Ends fast s ∧ s.collected = result) ↔ ∃ t, Ends slow t ∧ t.collected = result := by
  constructor
  · rintro ⟨_, ⟨ended, rounds, rfl⟩, rfl⟩
    obtain ⟨rounds', h⟩ := exists_behind hslow rounds
    exact ⟨_, ⟨h.status ▸ ended, rounds', rfl⟩, h.collected⟩
  · rintro ⟨_, ⟨ended, rounds, rfl⟩, rfl⟩
    obtain ⟨rounds', h⟩ := exists_ahead hslow rounds
    exact ⟨_, ⟨h.status ▸ ended, rounds', rfl⟩, h.collected.symm⟩

end Delay

end Enclave.Transfer
