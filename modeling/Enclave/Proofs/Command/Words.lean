import Enclave.Proofs.Command.Taking

/-!
# What the words of a command line give

A command line is read word by word, and values are looked at later than they are
read. What comes of it is simple all the same: an option with a value has it from one
word with an equals sign or from two words in a row (`Gives`), an option without one is
a word by itself, and nothing else gives an option.

For a single option, the effect of a word is stated once (`Reading.Step`): what is said
of the option before and after, and whether its value is still to come. Each way of
taking a word is such a step, and words read one after the other add up
(`Reading.mem_all_words`).
-/

namespace Enclave

/-- **Words give an option a value**: in one word, or in two of them in a row. -/
def Gives (words : List String) (name value : String) : Prop :=
  attachedWord name value ∈ words
    ∨ ∃ before after, words = before ++ optionWord name :: value :: after

theorem gives_cons_iff {word name value : String} {rest : List String} :
    Gives (word :: rest) name value ↔ word = attachedWord name value
      ∨ (word = optionWord name ∧ rest.head? = some value) ∨ Gives rest name value := by
  have hpair : (∃ before after, word :: rest = before ++ optionWord name :: value :: after)
      ↔ (word = optionWord name ∧ rest.head? = some value)
        ∨ ∃ before after, rest = before ++ optionWord name :: value :: after := by
    constructor
    · rintro ⟨before, after, hsplit⟩
      cases before with
      | nil =>
        obtain ⟨rfl, rfl⟩ := List.cons.inj hsplit
        exact .inl ⟨rfl, rfl⟩
      | cons _ before => exact .inr ⟨before, after, (List.cons.inj hsplit).2⟩
    · rintro (⟨rfl, hhead⟩ | ⟨before, after, rfl⟩)
      · obtain ⟨after, rfl⟩ := List.head?_eq_some_iff.mp hhead
        exact ⟨[], after, rfl⟩
      · exact ⟨word :: before, after, rfl⟩
  unfold Gives
  rw [hpair, List.mem_cons, eq_comm, or_assoc]
  exact or_congr_right or_left_comm

/-! ## One option among others -/

/-- **An option that is told apart from all others** by its name: it is the one of that
name, it has no letter, and there is no equals sign in its name. -/
structure CommandOption.Distinct (options : List CommandOption) (o : CommandOption) : Prop where
  /-- It has a name. -/
  named : o.name ≠ ""
  /-- It is found by its name. -/
  found : options.find? (·.name = o.name) = some o
  /-- No option with a letter has its name. -/
  letter : ∀ o' ∈ options, o'.name = o.name → o'.letter = none
  /-- The name ends where the word does, or at the equals sign. -/
  plain : '=' ∉ o.name.toList

namespace Reading

variable {options : List CommandOption} {o : CommandOption} {r r' : Reading} {word : String}

/-- **What a word gives an option at once.** -/
def Says (o : CommandOption) (word value : String) : Prop :=
  match o.use with
  | .value _ => word = attachedWord o.name value
  | _ => word = optionWord o.name ∧ value = ""

/-- **A word after which the value of an option is to come.** -/
def Opens (o : CommandOption) (word : String) : Prop :=
  (∃ check, o.use = .value check) ∧ word = optionWord o.name

/-- **What a word does to an option.** -/
structure Step (o : CommandOption) (r : Reading) (word : String) (r' : Reading) : Prop where
  /-- The option has what it had before, the value that was to come, and what the word
  says. -/
  all : ∀ value, (o.name, value) ∈ r'.all
    ↔ (o.name, value) ∈ r.all ∨ (r.Awaits o.name ∧ word = value) ∨ Says o word value
  /-- A value is still to come if the word opens the option. -/
  awaits : r'.Awaits o.name ↔ Opens o word
  /-- Unless it is counted, it is given once. -/
  once : o.use ≠ .count → r.count o.name ≤ 1 → r'.count o.name ≤ 1

/-- A word that stands for another option. -/
theorem step_of_other (hsaid : ∀ value, ¬ Says o word value) (hopens : ¬ Opens o word)
    (hcomplete : ¬ r.Awaits o.name) (hall : ∀ value, (o.name, value) ∈ r'.all
      ↔ (o.name, value) ∈ r.all) (hawaits : ¬ r'.Awaits o.name)
    (honce : o.use ≠ .count → r.count o.name ≤ 1 → r'.count o.name ≤ 1) : Step o r word r' where
  all value := by
    rw [hall value]
    exact ⟨.inl, fun h => h.elim id fun h => h.elim (fun h => absurd h.1 hcomplete)
      fun h => absurd h (hsaid value)⟩
  awaits := iff_of_false hawaits hopens
  once := honce

theorem says_value_iff {check : String → Except UsageError Unit} (huse : o.use = .value check)
    {value : String} : Says o word value ↔ word = attachedWord o.name value := by
  unfold Says
  rw [huse]

theorem says_plain_iff (huse : ∀ check, o.use ≠ .value check) {value : String} :
    Says o word value ↔ word = optionWord o.name ∧ value = "" := by
  unfold Says
  split
  case h_1 check hvalue => exact absurd hvalue (huse check)
  case h_2 => exact Iff.rfl

/-- Taking another option does nothing to this one. -/
theorem Takes.other {o' : CommandOption} {attached : Option String} (h : Takes r o' attached r')
    (hne : o'.name ≠ o.name) :
    (∀ value, (o.name, value) ∈ r'.all ↔ (o.name, value) ∈ r.all) ∧ ¬ r'.Awaits o.name
      ∧ (r.count o.name ≤ 1 → r'.count o.name ≤ 1) := by
  have happend (given value : String) :
      (o.name, value) ∈ r.all ++ [(o'.name, given)] ↔ (o.name, value) ∈ r.all := by
    rw [List.mem_append, List.mem_singleton, Prod.mk.injEq]
    exact or_iff_left fun heq => hne heq.1.symm
  refine ⟨?_, ?_, h.once o.name fun _ => hne⟩
  · cases h.how with
    | attached value check use all pending =>
      rw [all]
      exact happend value
    | opened check use all pending =>
      rw [all]
      exact fun _ => Iff.rfl
    | plain use all pending =>
      rw [all]
      exact happend ""
  · cases h.how with
    | attached value check use all pending => exact not_awaits_of_pending_none pending _
    | opened check use all pending =>
      rintro ⟨o'', hpending, hname⟩
      rw [pending] at hpending
      cases hpending
      exact hne hname
    | plain use all pending => exact not_awaits_of_pending_none pending _

/-- **A word with two dashes** is a step. -/
theorem step_takeNamed (ho : o.Distinct options) {cs : List Char}
    (hword : word.toList = '-' :: '-' :: cs)
    (h : takeNamed options r (splitEquals cs).1 (splitEquals cs).2 = .ok r') :
    Step o r word r' := by
  have hoption := eq_optionWord_iff ho.plain hword
  have hattached (value : String) :
      word = attachedWord o.name value ↔ splitEquals cs = (o.name, some value) :=
    eq_attachedWord_iff ho.plain hword
  generalize splitEquals cs = parts at h hoption hattached
  obtain ⟨name, attached⟩ := parts
  obtain ⟨o', hfind, htakes⟩ := takes_takeNamed h
  have hname : o'.name = name := by
    have hfound := List.find?_some hfind
    exact of_decide_eq_true hfound
  by_cases hsame : name = o.name
  case neg =>
    -- the word is for another option
    obtain ⟨hall, hawaits, honce⟩ := htakes.other (hname ▸ hsame)
    have hnot (value : String) : ¬ Says o word value := by
      intro hsaid
      cases huse : o.use with
      | value check =>
        exact hsame (Prod.mk.inj ((hattached value).mp ((says_value_iff huse).mp hsaid))).1
      | toggle | count | help | version =>
        have hplain := (says_plain_iff (by rw [huse]; nofun)).mp hsaid
        exact hsame (Prod.mk.inj (hoption.mp hplain.1)).1
    exact step_of_other hnot (fun hopens => hsame (Prod.mk.inj (hoption.mp hopens.2)).1)
      (htakes.complete _) hall hawaits fun _ => honce
  subst hsame
  obtain rfl : o' = o := Option.some.inj (hfind.symm.trans ho.found)
  have hcomplete := htakes.complete o'.name
  have honce : o'.use ≠ .count → r.count o'.name ≤ 1 → r'.count o'.name ≤ 1 :=
    fun huse => htakes.once o'.name fun hcount => absurd hcount huse
  cases htakes.how with
  | attached value check use all pending =>
    refine ⟨fun v => ?_, ?_, honce⟩
    · rw [all, List.mem_append, List.mem_singleton, Prod.mk.injEq, says_value_iff use, hattached,
        Prod.mk.injEq, Option.some.injEq]
      exact ⟨fun h => h.imp_right fun h => .inr ⟨rfl, h.2.symm⟩,
        fun h => h.imp_right fun h =>
          h.elim (fun h => absurd h.1 hcomplete) fun h => ⟨rfl, h.2.symm⟩⟩
    · refine iff_of_false (not_awaits_of_pending_none pending _) fun hopens => ?_
      exact absurd (Prod.mk.inj (hoption.mp hopens.2)).2 nofun
  | opened check use all pending =>
    refine ⟨fun v => ?_, ?_, honce⟩
    · rw [all, says_value_iff use, hattached, Prod.mk.injEq]
      exact ⟨.inl, fun h => h.elim id fun h => h.elim (fun h => absurd h.1 hcomplete)
        fun h => absurd h.2 nofun⟩
    · exact iff_of_true ⟨_, pending, rfl⟩ ⟨⟨check, use⟩, hoption.mpr rfl⟩
  | plain use all pending =>
    refine ⟨fun v => ?_, ?_, honce⟩
    · rw [all, List.mem_append, List.mem_singleton, Prod.mk.injEq, says_plain_iff use]
      exact ⟨fun h => h.imp_right fun h => .inr ⟨hoption.mpr rfl, h.2⟩,
        fun h => h.imp_right fun h => h.elim (fun h => absurd h.1 hcomplete) fun h => ⟨rfl, h.2⟩⟩
    · refine iff_of_false (not_awaits_of_pending_none pending _) fun hopens => ?_
      obtain ⟨check, hcheck⟩ := hopens.1
      exact use check hcheck

/-- Options by their letters do nothing to an option without one. -/
theorem TakesLetters.other (ho : o.Distinct options) (h : TakesLetters options r r') :
    ¬ r.Awaits o.name ∧ (∀ value, (o.name, value) ∈ r'.all ↔ (o.name, value) ∈ r.all)
      ∧ ¬ r'.Awaits o.name ∧ (r.count o.name ≤ 1 → r'.count o.name ≤ 1) := by
  induction h with
  | last mem letter only =>
    exact ⟨only.complete _, only.other fun hname => letter (ho.letter _ mem hname)⟩
  | more mem letter first rest ih =>
    obtain ⟨hall, -, honce⟩ := first.other fun hname => letter (ho.letter _ mem hname)
    obtain ⟨-, hall', hawaits, honce'⟩ := ih
    exact ⟨first.complete _, fun value => (hall' value).trans (hall value), hawaits,
      fun h => honce' (honce h)⟩

/-- A word without two dashes in front stands for no option by its name. -/
theorem not_says_of_not_dashes (hword : ∀ cs, word.toList ≠ '-' :: '-' :: cs) :
    (∀ value, ¬ Says o word value) ∧ ¬ Opens o word := by
  have hoption : word ≠ optionWord o.name := by
    rintro rfl
    exact hword _ String.toList_append
  have hattached (value : String) : word ≠ attachedWord o.name value := by
    rintro rfl
    exact hword _ (toList_attachedWord o.name value)
  refine ⟨fun value hsaid => ?_, fun hopens => hoption hopens.2⟩
  cases huse : o.use with
  | value check => exact hattached value ((says_value_iff huse).mp hsaid)
  | toggle | count | help | version =>
    exact hoption ((says_plain_iff (by rw [huse]; nofun)).mp hsaid).1

/-- Two dashes alone say nothing. -/
theorem not_says_dashes (ho : o.Distinct options) (value : String) : ¬ Says o "--" value := by
  have hword : "--".toList = '-' :: '-' :: [] := rfl
  have hsplit : splitEquals [] = ("", none) := rfl
  intro hsaid
  cases huse : o.use with
  | value check =>
    have hattached := (eq_attachedWord_iff ho.plain hword).mp ((says_value_iff huse).mp hsaid)
    rw [hsplit] at hattached
    exact absurd (Prod.mk.inj hattached).2 nofun
  | toggle | count | help | version =>
    have hplain := (says_plain_iff (by rw [huse]; nofun)).mp hsaid
    have hoption := (eq_optionWord_iff ho.plain hword).mp hplain.1
    rw [hsplit] at hoption
    exact ho.named (Prod.mk.inj hoption).1.symm

/-- **Every word is a step.** -/
theorem step_takeWord (ho : o.Distinct options) {stray : UsageError}
    (h : takeWord options stray r word = .ok r') : Step o r word r' := by
  unfold takeWord at h
  split at h
  case h_1 cs hword => exact step_takeNamed ho hword h
  case h_2 c cs hdash hword =>
    have hdashes : ∀ cs, word.toList ≠ '-' :: '-' :: cs := by
      intro cs' hcs'
      have hchars := hword.symm.trans hcs'
      exact hdash (List.cons.inj (List.cons.inj hchars).2).1
    obtain ⟨hsaid, hopens⟩ := not_says_of_not_dashes (o := o) hdashes
    obtain ⟨hcomplete, hall, hawaits, honce⟩ :=
      ((takesLetters h).resolve_left nofun).other ho
    exact step_of_other hsaid hopens hcomplete hall hawaits fun _ => honce
  case h_3 hdashes hdash =>
    obtain ⟨hsaid, hopens⟩ := not_says_of_not_dashes (o := o) hdashes
    split at h
    case h_1 o' hpending =>
      cases h
      have hall : r.all = r.given := by
        unfold all
        rw [hpending]
      have hawaited : r.Awaits o.name ↔ o'.name = o.name := by
        refine ⟨?_, fun hname => ⟨o', hpending, hname⟩⟩
        rintro ⟨o'', hpending', hname⟩
        rw [hpending] at hpending'
        cases hpending'
        exact hname
      refine ⟨fun value => ?_, ?_, fun _ h => h⟩
      · show (o.name, value) ∈ r.given ++ [(o'.name, word)] ↔ _
        rw [hall, hawaited, List.mem_append, List.mem_singleton, Prod.mk.injEq]
        refine or_congr_right ?_
        exact ⟨fun h => .inl ⟨h.1.symm, h.2.symm⟩, fun h => h.elim (fun h => ⟨h.1.symm, h.2.symm⟩)
          fun h => absurd h (hsaid value)⟩
      · refine iff_of_false ?_ hopens
        rintro ⟨o'', hpending', -⟩
        cases hpending'
    case h_2 => cases h

/-! ## Words one after the other -/

/-- **What words tell of an option**: one of them says a value, or opens the option,
and then the next one is the value. -/
def Told (o : CommandOption) : List String → String → Prop
  | [], _ => False
  | word :: rest, value =>
    Says o word value ∨ (Opens o word ∧ rest.head? = some value) ∨ Told o rest value

/-- **Words read one after the other** add up, as far as they are read. -/
theorem mem_all_words (ho : o.Distinct options) {commands ws : List String}
    {found : Option (String × List String)} {settled : Reading}
    (h : words options commands r ws = .ok (r', found)) (hsettle : r'.settle = .ok settled) :
    ∃ consumed, (match found with
        | none => ws = consumed
        | some (command, rest) => ws = consumed ++ command :: rest ∧ command ∈ commands)
      ∧ (∀ value, (o.name, value) ∈ r'.all ↔ (o.name, value) ∈ r.all
          ∨ (r.Awaits o.name ∧ consumed.head? = some value) ∨ Told o consumed value)
      ∧ (o.use ≠ .count → r.count o.name ≤ 1 → r'.count o.name ≤ 1) := by
  have hempty (r : Reading) (value : String) : (o.name, value) ∈ r.all
      ↔ (o.name, value) ∈ r.all ∨ (r.Awaits o.name ∧ ([] : List String).head? = some value)
        ∨ Told o [] value :=
    ⟨.inl, fun h => h.elim id fun h => h.elim (fun h => absurd h.2 nofun) False.elim⟩
  induction ws generalizing r with
  | nil =>
    cases h
    exact ⟨[], rfl, hempty r', fun _ h => h⟩
  | cons word rest ih =>
    unfold words at h
    dsimp only at h
    split at h
    case isTrue hcommand =>
      cases h
      have hmem : word ∈ commands := List.contains_iff_mem.mp (Bool.and_eq_true_iff.mp hcommand).2
      exact ⟨[], ⟨rfl, hmem⟩, hempty r', fun _ h => h⟩
    case isFalse =>
      split at h
      case isTrue hend =>
        -- nothing follows two dashes
        subst hend
        split at h
        case h_1 =>
          cases h
          have hcomplete := (settle_eq_ok hsettle).complete o.name
          have htold (value : String) : ¬ Told o ["--"] value := fun htold =>
            htold.elim (not_says_dashes ho value) fun h => h.elim (fun h => absurd h.2 nofun) id
          refine ⟨["--"], rfl, fun value => ?_, fun _ h => h⟩
          exact ⟨.inl, fun h => h.elim id fun h => h.elim (fun h => absurd h.1 hcomplete)
            fun h => absurd h (htold value)⟩
        case h_2 => split at h <;> cases h
      case isFalse =>
        split at h
        case h_1 r₁ htake =>
          have hstep := step_takeWord ho htake
          obtain ⟨consumed, hconsumed, hall, honce⟩ := ih h
          refine ⟨word :: consumed, ?_, fun value => ?_, fun huse hcount =>
            honce huse (hstep.once huse hcount)⟩
          · cases found with
            | none => exact congrArg (word :: ·) hconsumed
            | some command => exact ⟨congrArg (word :: ·) hconsumed.1, hconsumed.2⟩
          · rw [hall, hstep.all, hstep.awaits, List.head?_cons, Option.some.injEq]
            show _ ↔ _ ∨ _ ∨ Says o word value ∨ _ ∨ _
            simp only [or_assoc]
        case h_2 => cases h

/-- An option with a value is told one exactly if the words give it. -/
theorem told_value_iff {check : String → Except UsageError Unit} (huse : o.use = .value check)
    {ws : List String} {value : String} : Told o ws value ↔ Gives ws o.name value := by
  induction ws with
  | nil =>
    refine iff_of_false id ?_
    rintro (hmem | ⟨before, after, hsplit⟩)
    · cases hmem
    · exact absurd hsplit.symm (List.append_ne_nil_of_right_ne_nil before nofun)
  | cons word rest ih =>
    show Says o word value ∨ (Opens o word ∧ rest.head? = some value) ∨ Told o rest value ↔ _
    have hopens : Opens o word ↔ word = optionWord o.name :=
      and_iff_right ⟨check, huse⟩
    rw [ih, says_value_iff huse, hopens, gives_cons_iff]

/-- An option without a value is told so exactly if its word is there. -/
theorem told_plain_iff (huse : ∀ check, o.use ≠ .value check) {ws : List String} {value : String} :
    Told o ws value ↔ optionWord o.name ∈ ws ∧ value = "" := by
  induction ws with
  | nil => exact iff_of_false id fun h => absurd h.1 List.not_mem_nil
  | cons word rest ih =>
    show Says o word value ∨ (Opens o word ∧ rest.head? = some value) ∨ Told o rest value ↔ _
    have hopens : ¬ Opens o word := fun h => h.1.elim huse
    rw [ih, says_plain_iff huse, List.mem_cons]
    constructor
    · rintro (⟨rfl, hvalue⟩ | ⟨h, -⟩ | ⟨hmem, hvalue⟩)
      · exact ⟨.inl rfl, hvalue⟩
      · exact absurd h hopens
      · exact ⟨.inr hmem, hvalue⟩
    · rintro ⟨rfl | hmem, hvalue⟩
      · exact .inl ⟨rfl, hvalue⟩
      · exact .inr (.inr ⟨hmem, hvalue⟩)

/-! ## What is read in the end -/

/-- What is given once is found. -/
theorem value?_eq_some_iff {name value : String} (h : r.count name ≤ 1) :
    r.value? name = some value ↔ (name, value) ∈ r.given := by
  unfold value?
  unfold count at h
  generalize r.given = given at h ⊢
  induction given with
  | nil => exact ⟨nofun, nofun⟩
  | cons entry given ih =>
    obtain ⟨n, v⟩ := entry
    rw [List.lookup_cons, List.mem_cons, Prod.mk.injEq]
    by_cases hn : n = name
    · rw [List.filter_cons, if_pos (decide_eq_true hn), List.length_cons] at h
      have hrest : given.filter (fun entry => entry.1 = name) = [] :=
        List.length_eq_zero_iff.mp (Nat.le_zero.mp (Nat.le_of_succ_le_succ h))
      have hnone : (name, value) ∉ given := fun hmem =>
        List.filter_eq_nil_iff.mp hrest _ hmem (decide_eq_true rfl)
      rw [beq_iff_eq.mpr hn.symm, Option.some.injEq]
      exact ⟨fun hv => .inl ⟨hn.symm, hv.symm⟩,
        fun h => h.elim (fun h => h.2.symm) fun h => absurd h hnone⟩
    · rw [List.filter_cons, if_neg (fun h => hn (of_decide_eq_true h))] at h
      rw [beq_false_of_ne (Ne.symm hn)]
      exact (ih h).trans ⟨.inr, fun h => h.elim (fun h => absurd h.1.symm hn) id⟩

/-- **What words give an option**, once they are read and settled. -/
theorem value?_iff_told (ho : o.Distinct options) (hcount : o.use ≠ .count)
    {commands ws : List String} {found : Option (String × List String)} {settled : Reading}
    (h : words options commands {} ws = .ok (r, found)) (hsettle : r.settle = .ok settled) :
    ∃ consumed, (match found with
        | none => ws = consumed
        | some (command, rest) => ws = consumed ++ command :: rest ∧ command ∈ commands)
      ∧ ∀ value, settled.value? o.name = some value ↔ Told o consumed value := by
  obtain ⟨consumed, hconsumed, hall, honce⟩ := mem_all_words ho h hsettle
  have hsettled := settle_eq_ok hsettle
  refine ⟨consumed, hconsumed, fun value => ?_⟩
  have hempty : ¬ ({} : Reading).Awaits o.name := not_awaits_of_pending_none rfl _
  rw [value?_eq_some_iff (hsettled.once _ (honce hcount (Nat.zero_le 1))), hsettled.given, hall]
  exact ⟨fun h => h.elim (fun h => absurd h List.not_mem_nil)
    fun h => h.elim (fun h => absurd h.1 hempty) id, fun h => .inr (.inr h)⟩

end Reading

end Enclave
