import Enclave.Proofs.Storage.Rounds

/-!
# Transfers neither lose nor repeat bytes

A transfer is the one function that goes on as its rounds do (`Ends.map_collected`). So
what is known of rounds holds of `collect` and `pour`, which are given all answers at
once: they are the results of the transfers through a file that gives these answers
(`exists_ends_collect`, `exists_ends_pour`).

`transfers_faithful` puts this together for reading and for writing. Writing has one
thing of its own. What the calls offer are the bytes that are left of a byte string, so
that what is accepted is always its beginning (`accepted_after`).
-/

namespace Enclave.Transfer

variable {goal : Nat} {call : Calls goal} {s t : State}

/-! ## Answers that are given at once -/

/-- Behind the answers that are given a file is at its end. -/
theorem apply_drop {A B : Type} (f : List A → B) {last : A} (h : f [] = f [last]) (answers : List A)
    (n : Nat) : f (answers.drop n) = f (answers[n]?.getD last :: answers.drop (n + 1)) := by
  rcases Nat.lt_or_ge n answers.length with hn | hn
  · rw [List.drop_eq_getElem_cons hn, List.getElem?_eq_getElem hn, Option.getD_some]
  · rw [List.drop_eq_nil_of_le hn, List.drop_eq_nil_of_le (Nat.le_succ_of_le hn),
      List.getElem?_eq_none hn, Option.getD_none, h]

/-- **Only the answers that are given put a transfer off.** -/
theorem finite_delays {A : Type} {answers : List (Except IoError A)} {last : A}
    (piece : Bytes → A → Bytes)
    (hcall : ∀ n moved, (call n moved).map Subtype.val
      = (answers[n]?.getD (.ok last)).map (piece moved)) : (delays call).Finite := by
  refine (Set.finite_lt_nat answers.length).subset fun n hn => Nat.lt_of_not_le fun hlength => ?_
  obtain ⟨rounds, asked, e, hn, -⟩ := hn
  obtain ⟨-, hmade⟩ := (regular_after call rounds).made n _ hn
  have answer := congrArg Call.answer hmade
  rw [hcall, List.getElem?_eq_none hlength] at answer
  cases answer

/-- **A function that foretells a transfer**: from the number of calls so far and the bytes
that they moved, it goes on as rounds do. -/
def Foretells {R : Type} (call : Calls goal) (value : Bytes → R)
    (onward : Nat → Bytes → Except IoError R) : Prop :=
  ∀ number moved, onward number moved =
    if goal ≤ moved.length then .ok (value moved)
    else match (call number moved).map Subtype.val with
      | .ok piece => if piece = [] then .ok (value moved) else onward (number + 1) (moved ++ piece)
      | .error e => if e.isTransient then onward (number + 1) moved else .error e

/-- **What will become of a transfer.** -/
def outlook {R : Type} (value : Bytes → R) (onward : Nat → Bytes → Except IoError R) (s : State) :
    Except IoError R :=
  match s.status with
  | .going => onward s.calls.length s.moved
  | _ => s.collected.map value

section Foretelling

variable {R : Type} {value : Bytes → R} {onward : Nat → Bytes → Except IoError R}

theorem outlook_of_going (going : s.status = .going) :
    outlook value onward s = onward s.calls.length s.moved := by
  unfold outlook
  rw [going]

theorem outlook_of_ended (ended : s.status ≠ .going) :
    outlook value onward s = s.collected.map value := by
  unfold outlook
  split
  case h_1 going => exact absurd going ended
  case h_2 => rfl

/-- **A round does not change the outlook.** -/
theorem Round.outlook_eq (h : Round call s t) (honward : Foretells call value onward) :
    outlook value onward t = outlook value onward s := by
  have hroom (going : s.status = .going) (room : s.moved.length < goal) :
      outlook value onward s = match (call s.calls.length s.moved).map Subtype.val with
        | .ok piece =>
          if piece = [] then .ok (value s.moved)
          else onward (s.calls.length + 1) (s.moved ++ piece)
        | .error e =>
          if e.isTransient then onward (s.calls.length + 1) s.moved else .error e := by
    rw [outlook_of_going going, honward, if_neg (Nat.not_le.mpr room)]
  have hlength (asked : Nat) (answer : Except IoError Bytes) :
      (s.calls ++ [(⟨asked, answer⟩ : Call)]).length = s.calls.length + 1 := List.length_append
  cases h with
  | ended ended => rfl
  | full going full =>
    rw [outlook_of_going going, honward, if_pos full]
    rfl
  | dry going room empty answer =>
    rw [hroom going room, answer]
    exact (if_pos empty).symm
  | moves going room nonempty answer =>
    rw [hroom going room, answer]
    refine Eq.trans (outlook_of_going going) (Eq.trans ?_ (if_neg nonempty).symm)
    exact congrArg (onward · _) (hlength _ _)
  | delay going room transient answer =>
    rw [hroom going room, answer]
    refine Eq.trans (outlook_of_going going) (Eq.trans ?_ (if_pos transient).symm)
    exact congrArg (onward · _) (hlength _ _)
  | broken going room lasting answer =>
    rw [hroom going room, answer]
    exact (if_neg lasting).symm

/-- **A transfer comes to what is foretold.** -/
theorem Ends.map_collected (hs : Ends call s) (honward : Foretells call value onward) :
    s.collected.map value = onward 0 [] := by
  have hafter (rounds : Nat) : outlook value onward (after call rounds) = onward 0 [] := by
    induction rounds with
    | zero => rfl
    | succ rounds ih => exact ((round_step call _).outlook_eq honward).trans ih
  obtain ⟨ended, rounds, rfl⟩ := hs
  rw [← hafter rounds, outlook_of_ended ended]

end Foretelling

/-! ## Reading -/

section Reading

variable {limit : Nat} {source slower : Source}

theorem postpones_reading {place : Nat → Nat} (h : Postpones place source slower) (limit : Nat) :
    Postpones place (reading limit source) (reading limit slower) where
  inOrder := h.inOrder
  answers n := by
    unfold reading
    rw [h.answers]
  fails k hk moved := h.fails k hk _

/-- What is collected, from one answer on. -/
theorem collect_cons {room : Nat} (hroom : room ≠ 0) (answer : Except IoError Bytes)
    (rest : List (Except IoError Bytes)) :
    collect room (answer :: rest) = match answer.map (List.take room) with
      | .ok piece =>
        if piece = [] then .ok [] else (piece ++ ·) <$> collect (room - piece.length) rest
      | .error e => if e.isTransient then collect room rest else .error e := by
  refine (if_neg hroom).trans ?_
  rcases answer with e | _ | ⟨b, chunk⟩
  · rfl
  · show _ = if [].take room = [] then _ else _
    rw [List.take_nil, if_pos rfl]
  · have hne : (b :: chunk).take room ≠ [] := by
      rw [Ne, List.take_eq_nil_iff, not_or]
      exact ⟨hroom, List.cons_ne_nil b chunk⟩
    exact (if_neg hne).symm

theorem collect_zero (answers : List (Except IoError Bytes)) : collect 0 answers = .ok [] := by
  cases answers <;> rfl

theorem map_reading_ofAnswers (limit : Nat) (answers : List (Except IoError Bytes)) (number : Nat)
    (moved : Bytes) :
    (reading limit (.ofAnswers answers) number moved).map Subtype.val
      = (answers[number]?.getD (.ok [])).map (List.take (limit - moved.length)) := by
  unfold reading Source.ofAnswers
  cases answers[number]?.getD (.ok []) <;> rfl

/-- **Reading from a file that gives some answers** is foretold by what is collected. -/
theorem foretells_collect (limit : Nat) (answers : List (Except IoError Bytes)) :
    Foretells (reading limit (.ofAnswers answers)) id fun number moved =>
      (moved ++ ·) <$> collect (limit - moved.length) (answers.drop number) := by
  intro number moved
  show (moved ++ ·) <$> collect (limit - moved.length) (answers.drop number) = _
  by_cases full : limit ≤ moved.length
  case pos =>
    rw [if_pos full, Nat.sub_eq_zero_of_le full, collect_zero]
    exact congrArg Except.ok (List.append_nil moved)
  have hroom : limit - moved.length ≠ 0 := by omega
  have hdry : collect (limit - moved.length) [] = collect (limit - moved.length) [.ok []] :=
    (if_neg hroom).symm
  rw [if_neg full, map_reading_ofAnswers, apply_drop _ hdry, collect_cons hroom]
  cases (answers[number]?.getD (.ok [])).map (List.take (limit - moved.length)) with
  | error e => exact apply_ite ((moved ++ ·) <$> ·) _ _ _
  | ok piece =>
    by_cases hpiece : piece = []
    · refine (congrArg _ (if_pos hpiece)).trans (Eq.trans ?_ (if_pos hpiece).symm)
      exact congrArg Except.ok (List.append_nil moved)
    · refine (congrArg _ (if_neg hpiece)).trans (Eq.trans ?_ (if_neg hpiece).symm)
      show _ = (moved ++ piece ++ ·) <$> collect (limit - (moved ++ piece).length) _
      rw [Functor.map_map, List.length_append, Nat.sub_add_eq]
      exact congrArg (· <$> _) (funext fun _ => (List.append_assoc moved piece _).symm)

/-- **Reading from a file that gives some answers** ends with what is collected. -/
theorem exists_ends_collect (limit : Nat) (answers : List (Except IoError Bytes)) :
    ∃ s, Ends (reading limit (.ofAnswers answers)) s ∧ s.collected = collect limit answers := by
  obtain ⟨s, hs⟩ := exists_ends (finite_delays _ (map_reading_ofAnswers limit answers))
  refine ⟨s, hs, ?_⟩
  have h := hs.map_collected (foretells_collect limit answers)
  rw [Except.map_id] at h
  refine h.trans ?_
  show ([] ++ ·) <$> collect limit answers = _
  exact id_map _

end Reading

/-! ## Writing -/

section Writing

variable {b : Bytes} {sink slower : Sink}

theorem map_writing (b : Bytes) (sink : Sink) (number : Nat) (moved : Bytes) :
    (writing b sink number moved).map Subtype.val
      = (sink number (b.drop moved.length)).map fun accepted : Fin _ =>
          (b.drop moved.length).take accepted := by
  unfold writing
  cases sink number (b.drop moved.length) <;> rfl

theorem postpones_writing {place : Nat → Nat} (h : Postpones place sink slower) (b : Bytes) :
    Postpones place (writing b sink) (writing b slower) where
  inOrder := h.inOrder
  answers n := by
    unfold writing
    rw [h.answers]
  fails k hk moved := by
    obtain ⟨e, answer, transient⟩ := h.fails k hk (b.drop moved.length)
    refine ⟨e, ?_, transient⟩
    unfold writing
    rw [answer]
    rfl

/-- **A round accepts the bytes that come next.** -/
theorem Round.accepted (h : Round (writing b sink) s t) (hs : s.moved <+: b) : t.moved <+: b := by
  cases h with
  | @moves going room piece nonempty answer =>
    have hpiece : piece.val <+: b.drop s.moved.length := by
      have hmap := map_writing b sink s.calls.length s.moved
      rw [answer] at hmap
      cases hsink : sink s.calls.length (b.drop s.moved.length) with
      | error e => rw [hsink] at hmap; cases hmap
      | ok accepted =>
        rw [hsink] at hmap
        rw [Except.ok.inj hmap]
        exact List.take_prefix _ _
    obtain ⟨rest, rfl⟩ := hs
    rw [List.drop_left] at hpiece
    exact (List.prefix_append_right_inj s.moved).mpr hpiece
  | _ => exact hs

/-- **What was accepted is a beginning of what is written**, after any number of rounds. -/
theorem accepted_after (b : Bytes) (sink : Sink) (rounds : Nat) :
    (after (writing b sink) rounds).moved <+: b := by
  induction rounds with
  | zero => exact List.nil_prefix
  | succ rounds ih => exact (round_step _ _).accepted ih

theorem pour_zero (answers : List (Except IoError Nat)) : pour 0 answers = .ok 0 := by
  cases answers <;> rfl

/-- What is poured, from one answer on. -/
theorem pour_cons {room : Nat} (hroom : room ≠ 0) (answer : Except IoError Nat)
    (rest : List (Except IoError Nat)) :
    pour room (answer :: rest) = match answer.map (min · room) with
      | .ok k => if k = 0 then .ok 0 else (k + ·) <$> pour (room - k) rest
      | .error e => if e.isTransient then pour room rest else .error e := by
  refine (if_neg hroom).trans ?_
  rcases answer with e | _ | k
  · rfl
  · show _ = if min 0 room = 0 then _ else _
    rw [if_pos (Nat.zero_min room)]
  · have hne : min (k + 1) room ≠ 0 := by omega
    exact (if_neg hne).symm

theorem map_writing_ofAnswers (b : Bytes) (answers : List (Except IoError Nat)) (number : Nat)
    (moved : Bytes) :
    (writing b (.ofAnswers answers) number moved).map Subtype.val
      = (answers[number]?.getD (.ok 0)).map fun accepted =>
          (b.drop moved.length).take (min accepted (b.length - moved.length)) := by
  rw [map_writing, ← List.length_drop]
  unfold Sink.ofAnswers
  cases answers[number]?.getD (.ok 0) <;> rfl

/-- **Writing to a file that gives some answers** is foretold by what is poured. -/
theorem foretells_pour (b : Bytes) (answers : List (Except IoError Nat)) :
    Foretells (writing b (.ofAnswers answers)) List.length fun number moved =>
      (moved.length + ·) <$> pour (b.length - moved.length) (answers.drop number) := by
  intro number moved
  show (moved.length + ·) <$> pour (b.length - moved.length) (answers.drop number) = _
  by_cases full : b.length ≤ moved.length
  case pos =>
    rw [if_pos full, Nat.sub_eq_zero_of_le full, pour_zero]
    rfl
  have hroom : b.length - moved.length ≠ 0 := by omega
  have hdry : pour (b.length - moved.length) [] = pour (b.length - moved.length) [.ok 0] :=
    (if_neg hroom).symm
  rw [if_neg full, map_writing_ofAnswers, apply_drop _ hdry, pour_cons hroom]
  cases answers[number]?.getD (.ok 0) with
  | error e => exact apply_ite ((moved.length + ·) <$> ·) _ _ _
  | ok accepted =>
    have hk : min accepted (b.length - moved.length) ≤ b.length - moved.length :=
      Nat.min_le_right _ _
    dsimp only [Except.map]
    generalize min accepted (b.length - moved.length) = k at hk ⊢
    have hpiece : ((b.drop moved.length).take k).length = k := by
      rw [List.length_take, List.length_drop, Nat.min_eq_left hk]
    have hempty : (b.drop moved.length).take k = [] ↔ k = 0 := by
      rw [← List.length_eq_zero_iff, hpiece]
    by_cases hzero : k = 0
    · exact (congrArg _ (if_pos hzero)).trans (if_pos (hempty.mpr hzero)).symm
    · refine (congrArg _ (if_neg hzero)).trans (Eq.trans ?_ (if_neg (mt hempty.mp hzero)).symm)
      show _ = ((moved ++ (b.drop moved.length).take k).length + ·)
        <$> pour (b.length - (moved ++ (b.drop moved.length).take k).length) _
      rw [Functor.map_map, List.length_append, hpiece, Nat.sub_add_eq]
      exact congrArg (· <$> _) (funext fun _ => (Nat.add_assoc _ _ _).symm)

/-- **Writing to a file that gives some answers** ends with what is poured. -/
theorem exists_ends_pour (b : Bytes) (answers : List (Except IoError Nat)) :
    ∃ s, Ends (writing b (.ofAnswers answers)) s ∧ s.poured = pour b.length answers := by
  obtain ⟨s, hs⟩ := exists_ends (finite_delays _ (map_writing_ofAnswers b answers))
  refine ⟨s, hs, (hs.map_collected (foretells_pour b answers)).trans ?_⟩
  show (0 + ·) <$> pour b.length answers = _
  simp only [Nat.zero_add]
  exact id_map _

end Writing

/-! ## The main result -/

/-- **What reading does**, as far as the file lets it. -/
structure ReadsFaithfully (limit : Nat) (source : Source) : Prop where
  /-- It ends, and in one way, unless it is put off without end. -/
  ends : (delays (reading limit source)).Finite → ∃! s, Ends (reading limit source) s
  /-- It makes a call as long as there is room, and asks for what there is room for. -/
  calls : ∀ s, Ends (reading limit source) s → ∀ n c, s.calls[n]? = some c →
    (movedBy (s.calls.take n)).length < limit
      ∧ c.asked = limit - (movedBy (s.calls.take n)).length
      ∧ c.answer = (source n c.asked).map Subtype.val
  /-- It makes calls until there is no room, one delivers nothing, or one fails for good,
  and answers with what they delivered or how the last one failed. -/
  concluded : ∀ s, Ends (reading limit source) s → Concluded limit s.calls s.collected
  /-- All that was delivered is within the limit, and is what is answered with. -/
  delivered : ∀ s, Ends (reading limit source) s → (movedBy s.calls).length ≤ limit
    ∧ ∀ b, s.collected = .ok b → b = movedBy s.calls
  /-- It does not matter how often it is put off. -/
  putOff : ∀ place slower, Postpones place source slower → ∀ result,
    (∃ s, Ends (reading limit source) s ∧ s.collected = result)
      ↔ ∃ t, Ends (reading limit slower) t ∧ t.collected = result

/-- **What writing does**, as far as the file lets it. -/
structure WritesFaithfully (b : Bytes) (sink : Sink) : Prop where
  /-- It ends, and in one way, unless it is put off without end. -/
  ends : (delays (writing b sink)).Finite → ∃! s, Ends (writing b sink) s
  /-- It makes a call as long as there are bytes left, and offers all of these. -/
  calls : ∀ s, Ends (writing b sink) s → ∀ n c, s.calls[n]? = some c →
    (movedBy (s.calls.take n)).length < b.length
      ∧ c.answer = (sink n (b.drop (movedBy (s.calls.take n)).length)).map fun accepted : Fin _ =>
          (b.drop (movedBy (s.calls.take n)).length).take accepted
  /-- It makes calls until no bytes are left, one accepts nothing, or one fails for good. -/
  concluded : ∀ s, Ends (writing b sink) s → Concluded b.length s.calls s.collected
  /-- All that was accepted is a beginning of what is written, and its length is what is
  answered with. -/
  accepted : ∀ s, Ends (writing b sink) s → movedBy s.calls <+: b
    ∧ s.poured = s.collected.map List.length
    ∧ ∀ w, s.poured = .ok w → w ≤ b.length ∧ movedBy s.calls = b.take w
  /-- It does not matter how often it is put off. -/
  putOff : ∀ place slower, Postpones place sink slower → ∀ result,
    (∃ s, Ends (writing b sink) s ∧ s.poured = result)
      ↔ ∃ t, Ends (writing b slower) t ∧ t.poured = result

/-- The bytes that are answered with are those that were moved. -/
theorem Ends.eq_movedBy (h : Ends call s) {b : Bytes} (hb : s.collected = .ok b) :
    b = movedBy s.calls := by
  rw [← h.regular.moved]
  unfold State.collected at hb
  split at hb
  case h_1 => cases hb
  case h_2 => exact (Except.ok.inj hb).symm

theorem readsFaithfully (limit : Nat) (source : Source) : ReadsFaithfully limit source where
  ends := existsUnique_ends
  calls s hs n c hc := by
    obtain ⟨room, rfl⟩ := hs.regular.made n c hc
    exact ⟨room, rfl, rfl⟩
  concluded s hs := hs.regular.concluded hs.1
  delivered s hs := ⟨hs.regular.moved ▸ hs.regular.length_le, fun _ => hs.eq_movedBy⟩
  putOff _ _ hslower := (postpones_reading hslower limit).ends_iff

theorem writesFaithfully (b : Bytes) (sink : Sink) : WritesFaithfully b sink where
  ends := existsUnique_ends
  calls s hs n c hc := by
    obtain ⟨room, rfl⟩ := hs.regular.made n c hc
    exact ⟨room, map_writing b sink n _⟩
  concluded s hs := hs.regular.concluded hs.1
  accepted s hs := by
    have hbeginning : movedBy s.calls <+: b := by
      rw [← hs.regular.moved]
      obtain ⟨-, rounds, rfl⟩ := hs
      exact accepted_after b sink rounds
    refine ⟨hbeginning, rfl, fun w hw => ?_⟩
    unfold State.poured at hw
    cases hcollected : s.collected with
    | error e => rw [hcollected] at hw; cases hw
    | ok moved =>
      rw [hcollected] at hw
      cases hw
      rw [hs.eq_movedBy hcollected]
      exact ⟨hbeginning.length_le, List.prefix_iff_eq_take.mp hbeginning⟩
  putOff _ _ hslower result := by
    have hiff := (postpones_writing hslower b).ends_iff
    constructor
    · rintro ⟨s, hs, rfl⟩
      obtain ⟨t, ht, hcollected⟩ := (hiff _).mp ⟨s, hs, rfl⟩
      exact ⟨t, ht, congrArg (Except.map List.length) hcollected⟩
    · rintro ⟨t, ht, rfl⟩
      obtain ⟨s, hs, hcollected⟩ := (hiff _).mpr ⟨t, ht, rfl⟩
      exact ⟨s, hs, congrArg (Except.map List.length) hcollected⟩

/-- **Transfers neither lose nor repeat bytes**, whatever files answer to the single calls
(`ReadsFaithfully`, `WritesFaithfully`). If a file gives the answers of a list and then is
at its end, reading ends with what is collected from them, and writing with what is poured. -/
theorem transfers_faithful :
    (∀ limit source, ReadsFaithfully limit source)
      ∧ (∀ b sink, WritesFaithfully b sink)
      ∧ (∀ limit answers, ∃ s, Ends (reading limit (.ofAnswers answers)) s
        ∧ s.collected = collect limit answers)
      ∧ ∀ b answers, ∃ s, Ends (writing b (.ofAnswers answers)) s
        ∧ s.poured = pour b.length answers :=
  ⟨readsFaithfully, writesFaithfully, exists_ends_collect, exists_ends_pour⟩

/-- Three bytes come in two parts, and each of them late. -/
theorem transfers_faithful_late :
    ∃ s, Ends (reading 8 (.ofAnswers [.error ⟨.interrupted, ""⟩, .ok [1, 2],
        .error ⟨.wouldBlock, ""⟩, .ok [3], .ok [], .ok [4]])) s
      ∧ s.collected = .ok [1, 2, 3] :=
  transfers_faithful.2.2.1 8 _

end Enclave.Transfer
