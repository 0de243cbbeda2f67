import Enclave.Attestation.Registry
import Enclave.Proofs.Outcome
import Mathlib.Data.List.Induction

/-!
# What a name stands for in a registry

Names are registered and resolved in any order. A name may be registered again, with a
verifier or with a loader, and a loader may fail for a while and then succeed. What the
name stands for should be decided by what was last registered under it, and, where that
is a loader, by what has come of it since.

A run is told as its calls with what was answered to them (`Turn`). Loaders act on a
world of their own; beside it stands a log in which each of them notes that it ran, under
the number of the call that registered it, so that no run of a loader goes unseen. The
entry of a name is a summary of these turns: the latest registration, and the first
success since (`Turn.entry`). One call brings the entries of all names up to date
(`Run.lookup_step`), so that every run keeps to its summary (`Run.Summarised`), and
what a call does to one name it does to no other.
-/

namespace Enclave

namespace Registry

variable {m : Type → Type}

/-! ## Entries -/

section Entries

variable {name n : String} {p : Provider m} {entries : List (String × Provider m)}

/-- **Looking up after an insertion.** -/
theorem lookup_insert :
    (insert name p entries).lookup n = if n = name then some p else entries.lookup n := by
  have hhead (rest : List (String × Provider m)) :
      ((name, p) :: rest).lookup n = if n = name then some p else rest.lookup n := by
    rw [List.lookup_cons]
    by_cases h : n = name
    · rw [if_pos h, beq_iff_eq.mpr h]
    · rw [if_neg h, beq_false_of_ne h]
  induction entries with
  | nil => exact hhead []
  | cons entry rest ih =>
    obtain ⟨k, q⟩ := entry
    unfold insert
    split
    case isTrue => exact hhead _
    case isFalse =>
      split
      case isTrue hk =>
        subst hk
        rw [hhead, List.lookup_cons]
        by_cases h : n = name
        · rw [if_pos h, if_pos h]
        · rw [if_neg h, if_neg h, beq_false_of_ne h]
      case isFalse hk =>
        rw [List.lookup_cons, List.lookup_cons, ih]
        by_cases h : n = k
        · have hname : n ≠ name := fun heq => hk (heq.symm.trans h)
          rw [beq_iff_eq.mpr h, if_neg hname, if_neg hname]
        · rw [beq_false_of_ne h]

/-- An inserted name is new or an old one. -/
theorem mem_names_insert :
    n ∈ (insert name p entries).map (·.1) ↔ n = name ∨ n ∈ entries.map (·.1) := by
  induction entries with
  | nil => exact List.mem_cons
  | cons entry rest ih =>
    obtain ⟨k, q⟩ := entry
    unfold insert
    split
    case isTrue => exact List.mem_cons
    case isFalse =>
      split
      case isTrue hk =>
        subst hk
        simp only [List.map_cons, List.mem_cons, or_self_left]
      case isFalse => simp only [List.map_cons, List.mem_cons, ih, or_left_comm]

/-- **Insertion keeps the order of the names.** -/
theorem pairwise_insert (h : (entries.map (·.1)).Pairwise (· < ·)) :
    ((insert name p entries).map (·.1)).Pairwise (· < ·) := by
  induction entries with
  | nil => exact List.pairwise_singleton _ _
  | cons entry rest ih =>
    obtain ⟨k, q⟩ := entry
    obtain ⟨hk, hrest⟩ := List.pairwise_cons.mp h
    unfold insert
    split
    case isTrue hlt =>
      refine List.pairwise_cons.mpr ⟨fun n hn => ?_, h⟩
      rcases List.mem_cons.mp hn with rfl | hn
      · exact hlt
      · exact String.lt_trans hlt (hk n hn)
    case isFalse hge =>
      split
      case isTrue heq =>
        subst heq
        exact h
      case isFalse hne =>
        have hlt : k < name := String.not_le.mp fun hle =>
          hne (String.le_antisymm hle (String.not_lt.mp hge))
        refine List.pairwise_cons.mpr ⟨fun n hn => ?_, ih hrest⟩
        rcases mem_names_insert.mp hn with rfl | hn
        · exact hlt
        · exact hk n hn

/-- A name without an entry is not registered. -/
theorem lookup_eq_none_iff : entries.lookup n = none ↔ n ∉ entries.map (·.1) := by
  rw [List.lookup_eq_none_iff]
  refine ⟨fun h hn => ?_, fun h q hq => bne_iff_ne.mpr fun heq => h ?_⟩
  · obtain ⟨q, hq, rfl⟩ := List.mem_map.mp hn
    exact bne_iff_ne.mp (h q hq) rfl
  · exact List.mem_map.mpr ⟨q, hq, heq.symm⟩

end Entries

/-! ## Resolving -/

section Resolving

variable {τ : Type}

/-- **What resolving a name is**, by its entry. A loader that has brought nothing yet is
run, and only then anything happens to the world. -/
theorem run_resolve (r : Registry (StateM τ)) (name : String) (w : τ) :
    StateT.run (r.resolve name) w
      = match r.entries.lookup name with
        | some (.ready verifier) => ((.ok verifier, r), w)
        | some (.onDemand _ (some verifier)) => ((.ok verifier, r), w)
        | some (.onDemand loader none) =>
          ((answerOf loader w,
            match answerOf loader w with
            | .ok verifier => ⟨insert name (.onDemand loader (some verifier)) r.entries⟩
            | .error _ => r), worldAfter loader w)
        | none => ((.error (.pluginLoadFailure name (.unregistered r.names)), r), w) := by
  unfold resolve
  rcases r.entries.lookup name with _ | ⟨verifier⟩ | ⟨loader, _ | verifier⟩
  · rfl
  · rfl
  · show StateT.run (loader.run >>= _) w = _
    rw [StateT.run_bind]
    dsimp only
    unfold answerOf worldAfter
    rcases StateT.run (ExceptT.run loader) w with ⟨_ | _, _⟩ <;> rfl
  · rfl

/-- **What resolving a name comes to** in a world: the answer, and the world it leaves. -/
def resolution (r : Registry (StateM τ)) (name : String) (w : τ) :
    Except Error (RemoteVerifier (StateM τ)) × τ :=
  ((StateT.run (r.resolve name) w).1.1, (StateT.run (r.resolve name) w).2)

/-- What a registered name is resolved to is a matter of its entry. -/
theorem resolution_congr {r r' : Registry (StateM τ)} {name : String}
    (hmem : name ∈ r.names) (h : r'.entries.lookup name = r.entries.lookup name) (w : τ) :
    r'.resolution name w = r.resolution name w := by
  unfold resolution
  rw [run_resolve, run_resolve, h]
  cases hentry : r.entries.lookup name with
  | none => exact absurd hmem (lookup_eq_none_iff.mp hentry)
  | some p =>
    cases p with
    | ready verifier => rfl
    | onDemand loader loaded => cases loaded <;> rfl

/-- A name without an entry is refused with the names that have one. -/
theorem resolution_of_not_mem {r : Registry (StateM τ)} {name : String}
    (h : name ∉ r.names) (w : τ) :
    r.resolution name w = (.error (.pluginLoadFailure name (.unregistered r.names)), w) := by
  unfold resolution
  rw [run_resolve, lookup_eq_none_iff.mpr h]

end Resolving

/-! ## Runs -/

variable {σ : Type}

/-- **A verifier that a run comes by.** It may use the world, and the log beside it. -/
abbrev Found (σ : Type) := RemoteVerifier (StateM (σ × List Nat))

/-- **A loader**, which succeeds or fails by the world it finds. -/
abbrev Loader (σ : Type) := ExceptT Error (StateM σ) (Found σ)

/-- **A loader that notes its runs**, under a number. -/
def noted (number : Nat) (loader : Loader σ) : ExceptT Error (StateM (σ × List Nat)) (Found σ) :=
  ExceptT.mk fun w => (answerOf loader w.1, worldAfter loader w.1, w.2 ++ [number])

/-- **A call on a registry.** -/
inductive Call (σ : Type) where
  /-- A verifier is registered. -/
  | register (name : String) (verifier : Found σ)
  /-- A loader is registered. -/
  | registerLoader (name : String) (loader : Loader σ)
  /-- A name is resolved. -/
  | resolve (name : String)

/-- The name that a call is about. -/
def Call.name : Call σ → String
  | register name _ => name
  | registerLoader name _ => name
  | resolve name => name

/-- **A call that was made**, with its answer if it has one. -/
inductive Turn (σ : Type) where
  /-- A verifier was registered. -/
  | registered (name : String) (verifier : Found σ)
  /-- A loader was registered. -/
  | registeredLoader (name : String) (loader : Loader σ)
  /-- A name was resolved. -/
  | resolved (name : String) (answer : Except Error (Found σ))

namespace Turn

/-- The call that was made. -/
def call : Turn σ → Call σ
  | registered name verifier => .register name verifier
  | registeredLoader name loader => .registerLoader name loader
  | resolved name _ => .resolve name

/-- **Something was registered** under a name. -/
def Registers (n : String) : Turn σ → Prop
  | registered name _ => name = n
  | registeredLoader name _ => name = n
  | resolved _ _ => False

/-- **The verifier that a name was resolved to**, if that was the call and it succeeded. -/
def success? (n : String) : Turn σ → Option (Found σ)
  | resolved name (.ok verifier) => if name = n then some verifier else none
  | _ => none

@[simp] theorem success?_resolved (n name : String) (verifier : Found σ) :
    success? n (.resolved name (.ok verifier)) = if name = n then some verifier else none := rfl

/-- **The entry that a registration comes to**, with its number and the turns since: a
loader has brought what a resolution of the name first succeeded with. -/
def entry (n : String) (number : Nat) (since : List (Turn σ)) :
    Turn σ → Option (Provider (StateM (σ × List Nat)))
  | registered _ verifier => some (.ready verifier)
  | registeredLoader _ loader =>
    some (.onDemand (noted number loader) (since.findSome? (success? n)))
  | resolved _ _ => none

/-- **The latest registration of a name** among some turns, with those before it and
those since. -/
structure Latest (n : String) (t : Turn σ) (before since turns : List (Turn σ)) : Prop where
  /-- The turns are these. -/
  split : turns = before ++ t :: since
  /-- It is a registration of the name. -/
  registers : t.Registers n
  /-- It is the latest one. -/
  last : ∀ u ∈ since, ¬ u.Registers n

/-- The latest registration of a name was the last turn, or it was so before that turn. -/
theorem Latest.of_concat {n : String} {t u : Turn σ} {before since turns : List (Turn σ)}
    (h : Latest n t before since (turns ++ [u])) :
    (t = u ∧ before = turns ∧ since = [])
      ∨ ∃ since', since = since' ++ [u] ∧ ¬ u.Registers n ∧ Latest n t before since' turns := by
  obtain ⟨hsplit, hregisters, hlast⟩ := h
  rcases List.eq_nil_or_concat since with rfl | ⟨since', v, rfl⟩
  · obtain ⟨rfl, hu⟩ := List.append_inj' hsplit rfl
    exact .inl ⟨(List.singleton_inj.mp hu).symm, rfl, rfl⟩
  · rw [List.concat_eq_append] at hsplit hlast ⊢
    rw [← List.cons_append, ← List.append_assoc] at hsplit
    obtain ⟨rfl, hu⟩ := List.append_inj' hsplit rfl
    obtain rfl := List.singleton_inj.mp hu
    refine .inr ⟨since', rfl, hlast u (List.mem_append_right _ List.mem_cons_self), rfl,
      hregisters, fun v hv => hlast v (List.mem_append_left _ hv)⟩

/-- **A name was never registered, or it was registered last** at some turn. -/
theorem exists_latest (n : String) (turns : List (Turn σ)) :
    (∀ t ∈ turns, ¬ t.Registers n) ∨ ∃ t before since, Latest n t before since turns := by
  induction turns using List.reverseRecOn with
  | nil => exact .inl nofun
  | append_singleton turns u ih =>
    by_cases hu : u.Registers n
    · exact .inr ⟨u, turns, [], rfl, hu, nofun⟩
    rcases ih with hnever | ⟨t, before, since, rfl, ht, hlast⟩
    · refine .inl fun v hv => ?_
      rcases List.mem_append.mp hv with hv | hv
      · exact hnever v hv
      · exact List.mem_singleton.mp hv ▸ hu
    · refine .inr ⟨t, before, since ++ [u], by rw [List.append_assoc]; rfl, ht, fun v hv => ?_⟩
      rcases List.mem_append.mp hv with hv | hv
      · exact hlast v hv
      · exact List.mem_singleton.mp hv ▸ hu

end Turn

/-- **A provider that is told of a success**: a loader that has brought nothing yet keeps
what it brought now. -/
def keep {τ : Type} (found : Option (RemoteVerifier (StateM τ))) :
    Provider (StateM τ) → Provider (StateM τ)
  | .ready verifier => .ready verifier
  | .onDemand loader loaded => .onDemand loader (loaded.or found)

@[simp] theorem keep_none {τ : Type} (p : Provider (StateM τ)) : keep none p = p := by
  cases p with
  | ready verifier => rfl
  | onDemand loader loaded => exact congrArg _ Option.or_none

/-- One more turn is one more chance of a success. -/
theorem Turn.entry_concat (n : String) (number : Nat) (since : List (Turn σ)) (t u : Turn σ) :
    t.entry n number (since ++ [u]) = (t.entry n number since).map (keep (u.success? n)) := by
  cases t with
  | registered name verifier => rfl
  | resolved name answer => rfl
  | registeredLoader name loader =>
    unfold entry
    rw [List.findSome?_append, List.findSome?_singleton]
    rfl

/-- **A run**: the registry, the world that loaders act on, the log of those that ran,
and the calls so far with their answers. -/
structure Run (σ : Type) where
  /-- The registry. -/
  registry : Registry (StateM (σ × List Nat)) := {}
  /-- The world of the loaders. -/
  world : σ
  /-- The numbers of the loaders that ran, in order. -/
  loads : List Nat := []
  /-- The calls with their answers, in order. -/
  turns : List (Turn σ) := []

namespace Run

/-- The run with a resolution that changed nothing. -/
def answered (s : Run σ) (n : String) (answer : Except Error (Found σ)) : Run σ :=
  { s with turns := s.turns ++ [.resolved n answer] }

/-- **One call.** A loader is registered under the number of the call. -/
def step (s : Run σ) : Call σ → Run σ
  | .register name verifier =>
    { s with
      registry := s.registry.register name verifier
      turns := s.turns ++ [.registered name verifier] }
  | .registerLoader name loader =>
    { s with
      registry := s.registry.registerLoader name (noted s.turns.length loader)
      turns := s.turns ++ [.registeredLoader name loader] }
  | .resolve name =>
    let ((answer, registry), world, loads) :=
      StateT.run (s.registry.resolve name) (s.world, s.loads)
    { registry, world, loads, turns := s.turns ++ [.resolved name answer] }

/-- A resolution is that of the registry, in the world and with the log of the run. -/
theorem step_resolve (s : Run σ) (n : String) :
    s.step (.resolve n)
      = match StateT.run (s.registry.resolve n) (s.world, s.loads) with
        | ((answer, registry), world, loads) =>
          { registry, world, loads, turns := s.turns ++ [.resolved n answer] } := rfl

/-- **Calls, one after the other.** -/
def after (s : Run σ) (calls : List (Call σ)) : Run σ := calls.foldl step s

@[simp] theorem after_cons (s : Run σ) (c : Call σ) (calls : List (Call σ)) :
    s.after (c :: calls) = (s.step c).after calls := rfl

/-- **What a call does to the entries**: a registration puts its own entry in place, and
any other call tells the entry of a name whether the name was resolved with success. -/
theorem lookup_step (s : Run σ) (c : Call σ) :
    ∃ u : Turn σ, u.call = c ∧ (s.step c).turns = s.turns ++ [u]
      ∧ ∀ n, (u.Registers n →
          (s.step c).registry.entries.lookup n = u.entry n s.turns.length [])
        ∧ (¬ u.Registers n →
          (s.step c).registry.entries.lookup n
            = (s.registry.entries.lookup n).map (keep (u.success? n))) := by
  have hother (o : Option (Provider (StateM (σ × List Nat)))) : o.map (keep none) = o := by
    cases o with
    | none => rfl
    | some p => exact congrArg some (keep_none p)
  cases c with
  | register name verifier =>
    refine ⟨.registered name verifier, rfl, rfl, fun n => ⟨fun h => ?_, fun h => ?_⟩⟩
    · exact lookup_insert.trans (if_pos (Eq.symm h))
    · exact lookup_insert.trans ((if_neg (Ne.symm h)).trans (hother _).symm)
  | registerLoader name loader =>
    refine ⟨.registeredLoader name loader, rfl, rfl, fun n => ⟨fun h => ?_, fun h => ?_⟩⟩
    · exact lookup_insert.trans (if_pos (Eq.symm h))
    · exact lookup_insert.trans ((if_neg (Ne.symm h)).trans (hother _).symm)
  | resolve name =>
    refine ⟨.resolved name (s.registry.resolution name (s.world, s.loads)).1, rfl, rfl,
      fun n => ⟨nofun, fun _ => ?_⟩⟩
    show (StateT.run (s.registry.resolve name) (s.world, s.loads)).1.2.entries.lookup n = _
    unfold resolution
    rw [run_resolve]
    by_cases hn : name = n
    · subst hn
      rcases hentry : s.registry.entries.lookup name with _ | ⟨_⟩ | ⟨loader, _ | _⟩
      · exact hentry
      · exact hentry
      · dsimp only
        cases answerOf loader (s.world, s.loads) with
        | error e => exact hentry
        | ok verifier =>
          rw [lookup_insert, if_pos rfl, Turn.success?_resolved, if_pos rfl]
          rfl
      · exact hentry
    · have hfound (answer : Except Error (Found σ)) :
          (Turn.resolved name answer).success? n = none := by
        cases answer with
        | error e => rfl
        | ok verifier => exact if_neg hn
      rw [hfound, hother]
      rcases s.registry.entries.lookup name with _ | ⟨_⟩ | ⟨loader, _ | _⟩
      · rfl
      · rfl
      · dsimp only
        cases answerOf loader (s.world, s.loads) with
        | error e => rfl
        | ok verifier => exact lookup_insert.trans (if_neg (Ne.symm hn))
      · rfl

/-- Every call keeps the names in order. -/
theorem pairwise_step {s : Run σ} (h : s.registry.names.Pairwise (· < ·)) (c : Call σ) :
    (s.step c).registry.names.Pairwise (· < ·) := by
  cases c with
  | register name verifier => exact pairwise_insert h
  | registerLoader name loader => exact pairwise_insert h
  | resolve name =>
    show (StateT.run (s.registry.resolve name) (s.world, s.loads)).1.2.names.Pairwise (· < ·)
    rw [run_resolve]
    rcases s.registry.entries.lookup name with _ | ⟨_⟩ | ⟨loader, _ | _⟩
    · exact h
    · exact h
    · dsimp only
      cases answerOf loader (s.world, s.loads) with
      | error e => exact h
      | ok verifier => exact pairwise_insert h
    · exact h

/-- **A run whose registry sums up its turns.** -/
structure Summarised (s : Run σ) : Prop where
  /-- The entries are in the order of the names. -/
  increasing : s.registry.names.Pairwise (· < ·)
  /-- A name that was never registered has no entry. -/
  never : ∀ n, (∀ t ∈ s.turns, ¬ t.Registers n) → s.registry.entries.lookup n = none
  /-- Any other name has the entry of its latest registration. -/
  latest : ∀ n t before since, Turn.Latest n t before since s.turns →
    s.registry.entries.lookup n = t.entry n before.length since

/-- Nothing is registered at first. -/
theorem summarised_start (w : σ) : Summarised { world := w } where
  increasing := .nil
  never _ _ := rfl
  latest _ _ _ _ h :=
    absurd h.split.symm (List.append_ne_nil_of_right_ne_nil _ (List.cons_ne_nil _ _))

/-- **A call keeps the summary.** -/
theorem Summarised.step {s : Run σ} (h : s.Summarised) (c : Call σ) : (s.step c).Summarised := by
  obtain ⟨u, -, hturns, hlookup⟩ := s.lookup_step c
  refine ⟨pairwise_step h.increasing c, fun n hnever => ?_, fun n t before since hlatest => ?_⟩
  · rw [hturns] at hnever
    have hu : ¬ u.Registers n := hnever u (List.mem_append_right _ List.mem_cons_self)
    rw [(hlookup n).2 hu, h.never n fun t ht => hnever t (List.mem_append_left _ ht)]
    rfl
  · rw [hturns] at hlatest
    rcases hlatest.of_concat with ⟨rfl, rfl, rfl⟩ | ⟨since', rfl, hu, hbefore⟩
    · exact (hlookup n).1 hlatest.registers
    · rw [(hlookup n).2 hu, h.latest n t before since' hbefore, Turn.entry_concat]

/-- **So do any number of calls.** -/
theorem Summarised.after {s : Run σ} (h : s.Summarised) (calls : List (Call σ)) :
    (s.after calls).Summarised := by
  induction calls generalizing s with
  | nil => exact h
  | cons c calls ih => exact ih (h.step c)

/-- The turns of a run are its calls. -/
theorem map_call_turns_after (s : Run σ) (calls : List (Call σ)) :
    (s.after calls).turns.map Turn.call = s.turns.map Turn.call ++ calls := by
  induction calls generalizing s with
  | nil => exact (List.append_nil _).symm
  | cons c calls ih =>
    obtain ⟨u, rfl, hturns, -⟩ := s.lookup_step c
    rw [after_cons, ih, hturns, List.map_append, List.append_assoc]
    rfl

/-- A call on another name leaves an entry as it is. -/
theorem lookup_step_of_ne (s : Run σ) {c : Call σ} {n : String} (hc : c.name ≠ n) :
    (s.step c).registry.entries.lookup n = s.registry.entries.lookup n := by
  obtain ⟨u, rfl, -, hlookup⟩ := s.lookup_step c
  have hu : ¬ u.Registers n ∧ u.success? n = none := by
    cases u with
    | registered name verifier => exact ⟨hc, rfl⟩
    | registeredLoader name loader => exact ⟨hc, rfl⟩
    | resolved name answer =>
      cases answer with
      | error e => exact ⟨nofun, rfl⟩
      | ok verifier => exact ⟨nofun, if_neg hc⟩
  rw [(hlookup n).2 hu.1, hu.2]
  cases s.registry.entries.lookup n with
  | none => rfl
  | some p => exact congrArg some (keep_none p)

/-- So do any number of calls on other names. -/
theorem lookup_after_of_ne (s : Run σ) {calls : List (Call σ)} {n : String}
    (hcalls : ∀ c ∈ calls, c.name ≠ n) :
    (s.after calls).registry.entries.lookup n = s.registry.entries.lookup n := by
  induction calls generalizing s with
  | nil => rfl
  | cons c calls ih =>
    rw [after_cons, ih _ fun c hc => hcalls c (List.mem_cons_of_mem _ hc),
      lookup_step_of_ne s (hcalls c List.mem_cons_self)]

/-- **A run that does justice to what was registered.** -/
structure Faithful (s : Run σ) : Prop where
  /-- The names are listed in order, each of them once. -/
  increasing : s.registry.names.Pairwise (· < ·)
  /-- They are the names that were registered. -/
  mem_names_iff : ∀ n, n ∈ s.registry.names ↔ ∃ t ∈ s.turns, t.Registers n
  /-- A verifier that was registered last is what the name is resolved to. -/
  ready : ∀ n verifier before since,
    Turn.Latest n (.registered n verifier) before since s.turns →
    s.step (.resolve n) = s.answered n (.ok verifier)
  /-- A loader that was registered last runs once, and no other one does, as long as no
  resolution since has succeeded. What it brings is the answer, and if it fails, the
  registry is as before. -/
  loading : ∀ n loader before since,
    Turn.Latest n (.registeredLoader n loader) before since s.turns →
    since.findSome? (Turn.success? n) = none →
    (s.step (.resolve n)).turns = s.turns ++ [.resolved n (answerOf loader s.world)]
      ∧ (s.step (.resolve n)).world = worldAfter loader s.world
      ∧ (s.step (.resolve n)).loads = s.loads ++ [before.length]
      ∧ ∀ e, answerOf loader s.world = .error e → (s.step (.resolve n)).registry = s.registry
  /-- After its first success it does not run again, and the answer is that success. -/
  loaded : ∀ n loader before since verifier,
    Turn.Latest n (.registeredLoader n loader) before since s.turns →
    since.findSome? (Turn.success? n) = some verifier →
    s.step (.resolve n) = s.answered n (.ok verifier)
  /-- A name that was never registered is refused, and the names are listed. -/
  unknown : ∀ n, (∀ t ∈ s.turns, ¬ t.Registers n) →
    ∃ fault : LoadFault, s.step (.resolve n) = s.answered n (.error (.pluginLoadFailure n fault))
      ∧ fault.message
        = "no verifier registered (known: " ++ ", ".intercalate s.registry.names ++ ")"
  /-- A call runs no loader, or the one registered last under its own name. -/
  own : ∀ c : Call σ, (s.step c).loads = s.loads
    ∨ ∃ loader before since,
      Turn.Latest c.name (.registeredLoader c.name loader) before since s.turns
        ∧ (s.step c).loads = s.loads ++ [before.length]
  /-- Calls on other names do not change what a registered name is resolved to, in
  whatever world. -/
  undisturbed : ∀ n ∈ s.registry.names, ∀ calls : List (Call σ), (∀ c ∈ calls, c.name ≠ n) →
    ∀ w, (s.after calls).registry.resolution n w = s.registry.resolution n w
  /-- Nor do they make another name known. It is refused as before, and listed are the
  names that are known by then. -/
  refused : ∀ n ∉ s.registry.names, ∀ calls : List (Call σ), (∀ c ∈ calls, c.name ≠ n) →
    ∀ w, (s.after calls).registry.resolution n w
      = (.error (.pluginLoadFailure n (.unregistered (s.after calls).registry.names)), w)

section Summary

variable {s : Run σ} (h : s.Summarised) {n : String}
include h

theorem Summarised.mem_names_iff : n ∈ s.registry.names ↔ ∃ t ∈ s.turns, t.Registers n := by
  constructor
  · intro hmem
    by_contra hnone
    refine lookup_eq_none_iff.mp (h.never n fun t ht hregisters => ?_) hmem
    exact hnone ⟨t, ht, hregisters⟩
  · rintro ⟨t, ht, hregisters⟩
    rcases Turn.exists_latest n s.turns with hnever | ⟨u, before, since, hu⟩
    · exact absurd hregisters (hnever t ht)
    · by_contra hmem
      have hentry := h.latest n u before since hu
      rw [lookup_eq_none_iff.mpr hmem] at hentry
      cases u with
      | registered name verifier => cases hentry
      | registeredLoader name loader => cases hentry
      | resolved name answer => exact hu.registers

theorem Summarised.step_ready {verifier : Found σ} {before since : List (Turn σ)}
    (hlatest : Turn.Latest n (.registered n verifier) before since s.turns) :
    s.step (.resolve n) = s.answered n (.ok verifier) := by
  rw [step_resolve, run_resolve, h.latest n _ before since hlatest]
  rfl

theorem Summarised.step_loaded {loader : Loader σ} {verifier : Found σ}
    {before since : List (Turn σ)}
    (hlatest : Turn.Latest n (.registeredLoader n loader) before since s.turns)
    (hfound : since.findSome? (Turn.success? n) = some verifier) :
    s.step (.resolve n) = s.answered n (.ok verifier) := by
  rw [step_resolve, run_resolve, h.latest n _ before since hlatest, Turn.entry, hfound]
  rfl

theorem Summarised.step_loading {loader : Loader σ} {before since : List (Turn σ)}
    (hlatest : Turn.Latest n (.registeredLoader n loader) before since s.turns)
    (hfound : since.findSome? (Turn.success? n) = none) :
    (s.step (.resolve n)).turns = s.turns ++ [.resolved n (answerOf loader s.world)]
      ∧ (s.step (.resolve n)).world = worldAfter loader s.world
      ∧ (s.step (.resolve n)).loads = s.loads ++ [before.length]
      ∧ ∀ e, answerOf loader s.world = .error e →
        (s.step (.resolve n)).registry = s.registry := by
  have hanswer : answerOf (noted before.length loader) (s.world, s.loads)
      = answerOf loader s.world := rfl
  rw [step_resolve, run_resolve, h.latest n _ before since hlatest, Turn.entry, hfound]
  refine ⟨rfl, rfl, rfl, fun e he => ?_⟩
  dsimp only
  rw [hanswer, he]

theorem Summarised.step_unknown (hnever : ∀ t ∈ s.turns, ¬ t.Registers n) :
    s.step (.resolve n)
      = s.answered n (.error (.pluginLoadFailure n (.unregistered s.registry.names))) := by
  rw [step_resolve, run_resolve, h.never n hnever]
  rfl

theorem Summarised.loads_step (c : Call σ) :
    (s.step c).loads = s.loads
      ∨ ∃ loader before since,
        Turn.Latest c.name (.registeredLoader c.name loader) before since s.turns
          ∧ (s.step c).loads = s.loads ++ [before.length] := by
  cases c with
  | register name verifier => exact .inl rfl
  | registerLoader name loader => exact .inl rfl
  | resolve name =>
    rcases Turn.exists_latest name s.turns with hnever | ⟨t, before, since, hlatest⟩
    · exact .inl (by rw [h.step_unknown hnever]; rfl)
    have hname := hlatest.registers
    cases t with
    | registered k verifier =>
      obtain rfl : k = name := hname
      exact .inl (by rw [h.step_ready hlatest]; rfl)
    | registeredLoader k loader =>
      obtain rfl : k = name := hname
      cases hfound : since.findSome? (Turn.success? k) with
      | some verifier => exact .inl (by rw [h.step_loaded hlatest hfound]; rfl)
      | none => exact .inr ⟨loader, before, since, hlatest, (h.step_loading hlatest hfound).2.2.1⟩
    | resolved k answer => exact hname.elim

end Summary

/-- **Every run does justice to what was registered.** It starts with an empty registry,
and its turns are its calls, whatever the loaders do to the world and in whatever
pattern they succeed and fail. -/
theorem faithful_after (w : σ) (calls : List (Call σ)) :
    let s : Run σ := after { world := w } calls
    s.turns.map Turn.call = calls ∧ s.Faithful := by
  intro s
  have h : s.Summarised := (summarised_start w).after calls
  refine ⟨map_call_turns_after _ calls, ?_⟩
  exact {
    increasing := h.increasing
    mem_names_iff := fun n => h.mem_names_iff
    ready := fun n verifier before since hlatest => h.step_ready hlatest
    loading := fun n loader before since hlatest hfound => h.step_loading hlatest hfound
    loaded := fun n loader before since verifier hlatest hfound => h.step_loaded hlatest hfound
    unknown := fun n hnever => ⟨_, h.step_unknown hnever, rfl⟩
    own := h.loads_step
    undisturbed := fun n hmem calls hcalls =>
      resolution_congr hmem (lookup_after_of_ne s hcalls)
    refused := fun n hmem calls hcalls => by
      refine resolution_of_not_mem (lookup_eq_none_iff.mp ?_)
      rw [lookup_after_of_ne s hcalls]
      exact lookup_eq_none_iff.mpr hmem }

end Run

end Registry

end Enclave
