import Enclave.Command.Invocation
import Mathlib.Data.List.TakeWhile

/-!
# Taking an option

An option is taken from a word that is its name (`optionWord`), or its name and its
value with an equals sign between them (`attachedWord`), or from a letter. What a
reading holds then (`Reading.all`) is what it held before, and the option with its
value, unless that is still to come (`Reading.Awaits`). A value is looked at later than
it is read, when the next option is taken or the words end (`Reading.Settled`).
-/

namespace Enclave

/-- The word for an option by its name. -/
def optionWord (name : String) : String := "--" ++ name

/-- The word for an option with its value behind an equals sign. -/
def attachedWord (name value : String) : String := "--" ++ name ++ "=" ++ value

/-- The characters of a word with a value behind an equals sign. -/
theorem toList_attachedWord (name value : String) :
    (attachedWord name value).toList = '-' :: '-' :: (name.toList ++ '=' :: value.toList) := by
  unfold attachedWord
  rw [String.toList_append, String.toList_append, String.toList_append]
  simp

/-! ## The parts of a word -/

namespace Reading

theorem splitEquals_name {name : List Char} (h : '=' ∉ name) :
    splitEquals name = (String.ofList name, none) := by
  have hall : ∀ c ∈ name, decide (c ≠ '=') = true :=
    fun c hc => decide_eq_true fun heq => h (heq ▸ hc)
  unfold splitEquals
  dsimp only
  rw [List.takeWhile_eq_self_iff.mpr hall, List.dropWhile_eq_nil_iff.mpr hall]

theorem splitEquals_value {name : List Char} (h : '=' ∉ name) (value : List Char) :
    splitEquals (name ++ '=' :: value) = (String.ofList name, some (String.ofList value)) := by
  have hall : ∀ c ∈ name, decide (c ≠ '=') = true :=
    fun c hc => decide_eq_true fun heq => h (heq ▸ hc)
  unfold splitEquals
  dsimp only
  rw [List.takeWhile_append_of_pos hall, List.dropWhile_append_of_pos hall]
  rw [List.takeWhile_cons_of_neg (by decide), List.dropWhile_cons_of_neg (by decide),
    List.append_nil]

/-- The parts of a word make up the word. -/
theorem eq_of_splitEquals {cs : List Char} {name : String} {attached : Option String}
    (h : splitEquals cs = (name, attached)) :
    match attached with
    | none => cs = name.toList
    | some value => cs = name.toList ++ '=' :: value.toList := by
  have hparts : cs.takeWhile (fun c => decide (c ≠ '=')) ++ cs.dropWhile (fun c => decide (c ≠ '='))
      = cs := List.takeWhile_append_dropWhile
  unfold splitEquals at h
  dsimp only at h
  split at h
  case h_1 hnil =>
    obtain ⟨rfl, rfl⟩ := Prod.mk.inj h
    rw [hnil, List.append_nil] at hparts
    show cs = (String.ofList _).toList
    rw [String.toList_ofList, hparts]
  case h_2 c value hcons =>
    obtain ⟨rfl, rfl⟩ := Prod.mk.inj h
    have hmark : c = '=' := by
      have hhead := List.head?_dropWhile_not (fun c => decide (c ≠ '=')) cs
      rw [hcons] at hhead
      exact not_not.mp (of_decide_eq_false hhead)
    rw [hcons, hmark] at hparts
    show cs = (String.ofList _).toList ++ '=' :: (String.ofList value).toList
    rw [String.toList_ofList, String.toList_ofList, hparts]

/-- **A word is that of an option by its name** exactly if this is all that is in it. -/
theorem eq_optionWord_iff {word name : String} {cs : List Char} (hname : '=' ∉ name.toList)
    (hword : word.toList = '-' :: '-' :: cs) :
    word = optionWord name ↔ splitEquals cs = (name, none) := by
  have hchars : (optionWord name).toList = '-' :: '-' :: name.toList := String.toList_append
  rw [← String.toList_inj, hword, hchars, List.cons.injEq, List.cons.injEq]
  constructor
  · rintro ⟨-, -, rfl⟩
    rw [splitEquals_name hname, String.ofList_toList]
  · exact fun h => ⟨rfl, rfl, eq_of_splitEquals h⟩

theorem eq_attachedWord_iff {word name value : String} {cs : List Char}
    (hname : '=' ∉ name.toList) (hword : word.toList = '-' :: '-' :: cs) :
    word = attachedWord name value ↔ splitEquals cs = (name, some value) := by
  rw [← String.toList_inj, hword, toList_attachedWord, List.cons.injEq, List.cons.injEq]
  constructor
  · rintro ⟨-, -, rfl⟩
    rw [splitEquals_value hname, String.ofList_toList, String.ofList_toList]
  · exact fun h => ⟨rfl, rfl, eq_of_splitEquals h⟩

/-! ## What a reading holds -/

/-- **All that is given**, with the value that is still to be looked at. -/
def all (r : Reading) : List (String × String) :=
  match r.pending with
  | some (o, some value) => r.given ++ [(o.name, value)]
  | _ => r.given

/-- **The value of an option has not come yet.** -/
def Awaits (r : Reading) (name : String) : Prop :=
  ∃ o, r.pending = some (o, none) ∧ o.name = name

variable {r r' : Reading} {options : List CommandOption} {o : CommandOption} {word : String}

theorem all_of_pending_none (h : r.pending = none) : r.all = r.given := by
  unfold all
  rw [h]

theorem not_awaits_of_pending_none (h : r.pending = none) (name : String) : ¬ r.Awaits name := by
  rintro ⟨o, hpending, -⟩
  rw [h] at hpending
  cases hpending

theorem accept_eq_ok {value : String} (h : r.accept o value = .ok r') :
    r.count o.name = 0 ∧ r' = r.give o value := by
  unfold accept at h
  by_cases hcount : r.count o.name = 0
  · rw [if_neg (not_not_intro hcount)] at h
    refine ⟨hcount, ?_⟩
    cases huse : o.use with
    | value check =>
      rw [huse] at h
      dsimp only at h
      cases hcheck : check value with
      | error e =>
        rw [hcheck] at h
        cases h
      | ok _ =>
        rw [hcheck] at h
        exact (Except.ok.inj h).symm
    | toggle | count | help | version =>
      rw [huse] at h
      exact (Except.ok.inj h).symm
  · rw [if_pos hcount] at h
    cases h

theorem count_give (r : Reading) (o : CommandOption) (value name : String) :
    (r.give o value).count name = r.count name + if o.name = name then 1 else 0 := by
  unfold count give
  rw [List.filter_append, List.length_append]
  by_cases h : o.name = name <;> simp [h]

/-- An option that is accepted was not given before. -/
theorem count_accept {value name : String} (h : r.accept o value = .ok r')
    (hname : r.count name ≤ 1) : r'.count name ≤ 1 := by
  obtain ⟨hcount, rfl⟩ := accept_eq_ok h
  rw [count_give]
  by_cases ho : o.name = name
  · subst ho
    rw [hcount, if_pos rfl]
  · rw [if_neg ho]
    exact hname

theorem all_give (h : r.pending = none) (o : CommandOption) (value : String) :
    (r.give o value).all = r.given ++ [(o.name, value)] :=
  all_of_pending_none h

/-- **What is settled** is all that was given, and no value is still to come. -/
structure Settled (r r' : Reading) : Prop where
  /-- Everything has been looked at. -/
  given : r'.given = r.all
  /-- Nothing is left. -/
  pending : r'.pending = none
  /-- No value was still to come. -/
  complete : ∀ name, ¬ r.Awaits name
  /-- An option that is given once is not given again. -/
  once : ∀ name, r.count name ≤ 1 → r'.count name ≤ 1

theorem settle_eq_ok (h : r.settle = .ok r') : Settled r r' := by
  unfold settle at h
  split at h
  case h_1 hpending =>
    cases h
    exact ⟨(all_of_pending_none hpending).symm, hpending, not_awaits_of_pending_none hpending,
      fun _ h => h⟩
  case h_2 => cases h
  case h_3 o value hpending =>
    refine ⟨?_, ?_, ?_, fun _ hname => count_accept h hname⟩
    · rw [(accept_eq_ok h).2]
      unfold all
      rw [hpending]
      rfl
    · rw [(accept_eq_ok h).2]
      rfl
    · rintro name ⟨o', hawaited, -⟩
      rw [hpending] at hawaited
      cases hawaited

/-! ## Taking an option -/

/-- **How an option is given**, with what is attached to it. -/
inductive Given (r : Reading) (o : CommandOption) : Option String → Reading → Prop
  /-- It has a value. -/
  | attached {r' : Reading} (value : String) (check : String → Except UsageError Unit)
    (use : o.use = .value check) (all : r'.all = r.all ++ [(o.name, value)])
    (pending : r'.pending = none) : Given r o (some value) r'
  /-- It is to have a value, which comes later. -/
  | opened {r' : Reading} (check : String → Except UsageError Unit) (use : o.use = .value check)
    (all : r'.all = r.all) (pending : r'.pending = some (o, none)) : Given r o none r'
  /-- It has no value. -/
  | plain {r' : Reading} (use : ∀ check, o.use ≠ .value check)
    (all : r'.all = r.all ++ [(o.name, "")]) (pending : r'.pending = none) : Given r o none r'

/-- **An option taken**, once all before it is settled. -/
structure Takes (r : Reading) (o : CommandOption) (attached : Option String) (r' : Reading) :
    Prop where
  /-- How it is given. -/
  how : Given r o attached r'
  /-- No value was still to come. -/
  complete : ∀ name, ¬ r.Awaits name
  /-- Only an option that is counted is given again. -/
  once : ∀ name, (o.use = .count → o.name ≠ name) → r.count name ≤ 1 → r'.count name ≤ 1

/-- An option with its value. -/
theorem takes_accept {settled : Reading} {value : String}
    {check : String → Except UsageError Unit} (huse : o.use = .value check)
    (hsettled : Settled r settled) (h : settled.accept o value = .ok r') :
    Takes r o (some value) r' := by
  refine ⟨?_, hsettled.complete, fun name _ hname => count_accept h (hsettled.once name hname)⟩
  rw [(accept_eq_ok h).2]
  refine .attached value check huse ?_ hsettled.pending
  rw [all_give hsettled.pending, hsettled.given]

/-- An option without a value of its own. -/
theorem takes_takePlain (h : r.takePlain o = .ok r') : Takes r o none r' := by
  unfold takePlain at h
  cases hsettle : r.settle with
  | error e =>
    rw [hsettle] at h
    cases h
  | ok settled =>
    have hsettled := settle_eq_ok hsettle
    rw [hsettle] at h
    have hgiven (value : String) : (settled.give o value).all = r.all ++ [(o.name, value)] := by
      rw [all_give hsettled.pending, hsettled.given]
    cases huse : o.use with
    | help | version =>
      simp only [bind, Except.bind, huse] at h
      cases h
    | toggle =>
      simp only [bind, Except.bind, huse] at h
      refine ⟨?_, hsettled.complete, fun name _ hname => count_accept h (hsettled.once name hname)⟩
      rw [(accept_eq_ok h).2]
      exact .plain (fun _ => by rw [huse]; nofun) (hgiven "") hsettled.pending
    | count =>
      simp only [bind, Except.bind, huse] at h
      cases h
      refine ⟨?_, hsettled.complete, fun name hne hname => ?_⟩
      · exact .plain (fun _ => by rw [huse]; nofun) (hgiven "") hsettled.pending
      · rw [count_give, if_neg (hne huse)]
        exact hsettled.once name hname
    | value check =>
      simp only [bind, Except.bind, huse] at h
      cases h
      exact ⟨.opened check huse hsettled.given rfl, hsettled.complete,
        fun name _ hname => hsettled.once name hname⟩

/-- **An option by its name**: there is one of that name, and it is taken with what is
attached to it. -/
theorem takes_takeNamed {name : String} {attached : Option String}
    (h : takeNamed options r name attached = .ok r') :
    ∃ o, options.find? (·.name = name) = some o ∧ Takes r o attached r' := by
  unfold takeNamed at h
  cases hfind : options.find? (·.name = name) with
  | none =>
    rw [hfind] at h
    cases h
  | some o =>
    rw [hfind] at h
    refine ⟨o, rfl, ?_⟩
    dsimp only at h
    split at h
    case h_1 check value huse =>
      cases hsettle : r.settle with
      | error e =>
        rw [hsettle] at h
        cases h
      | ok settled =>
        rw [hsettle] at h
        exact takes_accept huse (settle_eq_ok hsettle) h
    case h_2 => cases h
    case h_3 => exact takes_takePlain h

/-- **Options by their letters** are taken one after the other, and each has a
letter. -/
inductive TakesLetters (options : List CommandOption) : Reading → Reading → Prop
  | last {r r' : Reading} {o : CommandOption} {attached : Option String} (mem : o ∈ options)
    (letter : o.letter ≠ none) (only : Takes r o attached r') : TakesLetters options r r'
  | more {r r₁ r' : Reading} {o : CommandOption} {attached : Option String} (mem : o ∈ options)
    (letter : o.letter ≠ none) (first : Takes r o attached r₁)
    (rest : TakesLetters options r₁ r') : TakesLetters options r r'

theorem takesLetters {letters : List Char} (h : takeLetters options r letters = .ok r') :
    letters = [] ∨ TakesLetters options r r' := by
  induction letters generalizing r with
  | nil => exact .inl rfl
  | cons c rest ih =>
    unfold takeLetters at h
    cases hfind : options.find? (·.letter = some c) with
    | none =>
      rw [hfind] at h
      cases h
    | some o =>
      rw [hfind] at h
      have hletter : o.letter ≠ none := by
        have hfound := List.find?_some hfind
        rw [of_decide_eq_true hfound]
        nofun
      have hmem := List.mem_of_find?_eq_some hfind
      dsimp only at h
      split at h
      case h_1 check _ _ huse =>
        cases hsettle : r.settle with
        | error e =>
          rw [hsettle] at h
          cases h
        | ok settled =>
          rw [hsettle] at h
          exact .inr (.last hmem hletter (takes_accept huse (settle_eq_ok hsettle) h))
      case h_2 =>
        cases hplain : r.takePlain o with
        | error e =>
          rw [hplain] at h
          cases h
        | ok r₁ =>
          rw [hplain] at h
          have hfirst := takes_takePlain hplain
          rcases ih h with rfl | hrest
          · cases h
            exact .inr (.last hmem hletter hfirst)
          · exact .inr (.more hmem hletter hfirst hrest)

end Reading

end Enclave
