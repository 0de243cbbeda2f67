import Enclave.Command.Invocation
import Enclave.Proofs.Settings.Layering
import Mathlib.Data.String.Basic

/-!
# Variables as a layer

A variable is for a setting if its name is that of the setting behind a prefix, in
any case (`Setting.Spelled`); what it says is its value as a literal
(`Settings.variableMention?_of_spelled`). The variable that chooses the settings file is
spelled in the same way, and is for no setting (`Settings.variableMention?_of_config`).

The layer of the environment then mentions for a setting what the one variable says
that is for it, and nothing if there is none (`Settings.mention?_variableLayer`,
`Settings.mention?_variableLayer_eq_none`).
-/

namespace Enclave

/-! ## Letters in either case -/

/-- The number of a letter in upper case. -/
theorem toNat_toUpper (c : Char) :
    c.toUpper.toNat = if 97 ≤ c.toNat ∧ c.toNat ≤ 122 then c.toNat - 32 else c.toNat := by
  have hshift : ('A'.val - 'a'.val).toNat = 4294967264 := by decide
  unfold Char.toUpper
  split
  case isTrue h =>
    have hrange : 97 ≤ c.toNat ∧ c.toNat ≤ 122 := h
    rw [if_pos hrange]
    show (c.val + ('A'.val - 'a'.val)).toNat = c.toNat - 32
    rw [UInt32.toNat_add, hshift]
    show (c.toNat + 4294967264) % 4294967296 = c.toNat - 32
    omega
  case isFalse h =>
    have hrange : ¬ (97 ≤ c.toNat ∧ c.toNat ≤ 122) := h
    rw [if_neg hrange]

/-- The number of a letter in lower case. -/
theorem toNat_toLower (c : Char) :
    c.toLower.toNat = if 65 ≤ c.toNat ∧ c.toNat ≤ 90 then c.toNat + 32 else c.toNat := by
  have hshift : ('a'.val - 'A'.val).toNat = 32 := by decide
  unfold Char.toLower
  split
  case isTrue h =>
    have hrange : 65 ≤ c.toNat ∧ c.toNat ≤ 90 := h
    rw [if_pos hrange]
    show (c.val + ('a'.val - 'A'.val)).toNat = c.toNat + 32
    rw [UInt32.toNat_add, hshift]
    show (c.toNat + 32) % 4294967296 = c.toNat + 32
    omega
  case isFalse h =>
    have hrange : ¬ (65 ≤ c.toNat ∧ c.toNat ≤ 90) := h
    rw [if_neg hrange]

/-- **Letters that are the same in upper case** are so in lower case. -/
theorem toLower_eq_of_toUpper_eq {c d : Char} (h : c.toUpper = d.toUpper) :
    c.toLower = d.toLower := by
  have hnumber : c.toUpper.toNat = d.toUpper.toNat := congrArg Char.toNat h
  rw [toNat_toUpper, toNat_toUpper] at hnumber
  rw [← Char.toNat_inj, toNat_toLower, toNat_toLower]
  split at hnumber <;> split at hnumber <;> split <;> split <;> omega

theorem map_toLower_eq_of_map_toUpper_eq {cs ds : List Char}
    (h : cs.map Char.toUpper = ds.map Char.toUpper) :
    cs.map Char.toLower = ds.map Char.toLower := by
  induction cs generalizing ds with
  | nil =>
    cases ds with
    | nil => rfl
    | cons d ds => cases h
  | cons c cs ih =>
    cases ds with
    | nil => cases h
    | cons d ds =>
      obtain ⟨hhead, htail⟩ := List.cons.inj h
      rw [List.map_cons, List.map_cons, toLower_eq_of_toUpper_eq hhead, ih htail]

namespace Text

/-- A character that is not white space in upper case is not white space. -/
theorem isSpace_of_toUpper {c : Char} (h : isSpace c.toUpper = false) : isSpace c = false := by
  simp only [isSpace, toNat_toUpper, Bool.or_eq_false_iff, Bool.and_eq_false_iff,
    decide_eq_false_iff_not] at h ⊢
  split at h <;> omega

/-- Characters are looked at one by one. -/
theorem isSpace_eq_false_of_all {cs : List Char} (h : (cs.all fun c => !isSpace c) = true) :
    ∀ c ∈ cs, isSpace c = false := by
  intro c hc
  rw [← Bool.not_eq_true']
  exact List.all_eq_true.mp h c hc

/-- Where no character is white space, there is none around. -/
theorem trim_eq_self {cs : List Char} (h : ∀ c ∈ cs, isSpace c = false) : trim cs = cs := by
  have hdrop {ds : List Char} (hds : ∀ c ∈ ds, isSpace c = false) : ds.dropWhile isSpace = ds := by
    cases ds with
    | nil => rfl
    | cons c ds =>
      exact List.dropWhile_cons_of_neg (Bool.eq_false_iff.mp (hds c List.mem_cons_self))
  unfold trim
  rw [hdrop h, hdrop fun c hc => h c (List.mem_reverse.mp hc), List.reverse_reverse]

end Text

/-! ## The names of variables -/

/-- **A name of the variable for a setting**, in any case. -/
def Setting.Spelled (field : Setting) (name : String) : Prop :=
  name.toList.map Char.toUpper = Settings.variablePrefix ++ field.name.toList.map Char.toUpper

namespace Settings

/-- **What stands behind the prefix** of a name is read in lower case. -/
theorem variableName?_of_toUpper {name : String} {rest : List Char}
    (hname : name.toList.map Char.toUpper = variablePrefix ++ rest.map Char.toUpper)
    (hspace : ∀ c ∈ rest.map Char.toUpper, Text.isSpace c = false)
    (hlower : rest.map Char.toLower = rest) :
    variableName? name = if rest ≠ "config".toList then some (String.ofList rest) else none := by
  have hopening : ∀ c ∈ variablePrefix, Text.isSpace c = false :=
    Text.isSpace_eq_false_of_all (by decide)
  have hplain : ∀ c ∈ name.toList, Text.isSpace c = false := by
    intro c hc
    apply Text.isSpace_of_toUpper
    have hmem := List.mem_map_of_mem (f := Char.toUpper) hc
    rw [hname, List.mem_append] at hmem
    exact hmem.elim (hopening _) (hspace _)
  have htake : (name.toList.take variablePrefix.length).map Char.toUpper = variablePrefix := by
    rw [List.map_take, hname, List.take_left]
  have hrest : (name.toList.drop variablePrefix.length).map Char.toLower = rest := by
    refine (map_toLower_eq_of_map_toUpper_eq ?_).trans hlower
    rw [List.map_drop, hname, List.drop_left]
  unfold variableName?
  rw [Text.trim_eq_self hplain]
  dsimp only
  rw [Text.trim_eq_self fun c hc => hplain c (List.mem_of_mem_drop hc), htake, hrest]
  by_cases hconfig : rest = "config".toList
  · rw [decide_eq_true rfl, decide_eq_false (not_not_intro hconfig), if_neg (not_not_intro hconfig)]
    rfl
  · rw [decide_eq_true rfl, decide_eq_true hconfig, if_pos hconfig]
    rfl

/-- **The variable of a setting** mentions it, with its value as a literal. -/
theorem variableMention?_of_spelled {field : Setting} {name : String} (h : field.Spelled name)
    (value : String) :
    variableMention? name value = some (field.name, variableValue field.name value) := by
  have hspace : ∀ c ∈ field.name.toList.map Char.toUpper, Text.isSpace c = false :=
    Text.isSpace_eq_false_of_all (by cases field <;> decide)
  have hlower : field.name.toList.map Char.toLower = field.name.toList := by
    cases field <;> decide
  have hconfig : field.name.toList ≠ "config".toList := by
    cases field <;> decide
  have hpieces : (Text.pieces '.' field.name.toList).map String.ofList = [field.name] := by
    cases field <;> decide
  unfold variableMention?
  rw [variableName?_of_toUpper h hspace hlower, if_pos hconfig, String.ofList_toList]
  dsimp only [Option.bind_eq_bind, Option.bind_some]
  rw [hpieces]
  have hname : field.name ≠ "" := by cases field <;> decide
  dsimp only
  rw [decide_eq_false hname]
  rfl

/-- **The variable that chooses the settings file** is for no setting. -/
theorem variableMention?_of_config {name : String}
    (h : name.toList.map Char.toUpper = Invocation.configVariable.toList) (value : String) :
    variableMention? name value = none := by
  have hname : name.toList.map Char.toUpper
      = variablePrefix ++ "config".toList.map Char.toUpper := h
  unfold variableMention?
  have hspace : ∀ c ∈ "config".toList.map Char.toUpper, Text.isSpace c = false :=
    Text.isSpace_eq_false_of_all (by decide)
  rw [variableName?_of_toUpper hname hspace (by decide), if_neg (not_not_intro rfl)]
  rfl

/-! ## The layer of the environment -/

variable {environment : List (String × String)} {field : Setting} {name value : String}

/-- What some variables mention, in their order. -/
def variableMentions (environment : List (String × String)) : Layer :=
  environment.filterMap fun (name, value) => variableMention? name value

theorem mem_variableMentions {entry : String × Json} : entry ∈ variableMentions environment
    ↔ ∃ source ∈ environment, variableMention? source.1 source.2 = some entry :=
  List.mem_filterMap

/-- The layer of the environment mentions what the variables do. -/
theorem mention?_variableLayer_eq (environment : List (String × String)) (name : String) :
    (variableLayer environment).mention? name = (variableMentions environment).mention? name := by
  have hnodup : ((variableLayer environment).map (·.1)).Nodup :=
    Layer.nodup_onto _ List.nodup_nil
  rw [Layer.mention?_of_nodup hnodup]
  exact (Layer.lookup_onto _ _).trans (Option.or_none)

/-- **The one variable for a setting** says what the environment mentions for it. -/
theorem mention?_variableLayer (hspelled : field.Spelled name) (hmem : (name, value) ∈ environment)
    (hone : ∀ entry ∈ environment, ∀ j,
      variableMention? entry.1 entry.2 = some (field.name, j) → entry = (name, value)) :
    (variableLayer environment).mention? field.name = some (variableValue field.name value) := by
  have hmention := variableMention?_of_spelled hspelled value
  rw [mention?_variableLayer_eq]
  refine Layer.mention?_of_mem (mem_variableMentions.mpr ⟨_, hmem, hmention⟩) fun j hj => ?_
  obtain ⟨entry, hentry, hsays⟩ := mem_variableMentions.mp hj
  obtain rfl := hone entry hentry j hsays
  rw [hmention] at hsays
  exact (Prod.mk.inj (Option.some.inj hsays)).2.symm

/-- **Without a variable for a setting**, the environment does not mention it. -/
theorem mention?_variableLayer_eq_none
    (h : ∀ entry ∈ environment, ∀ j, variableMention? entry.1 entry.2 ≠ some (field.name, j)) :
    (variableLayer environment).mention? field.name = none := by
  rw [mention?_variableLayer_eq]
  refine Layer.mention?_eq_none fun j hj => ?_
  obtain ⟨entry, hentry, hsays⟩ := mem_variableMentions.mp hj
  exact h entry hentry j hsays

end Settings

end Enclave
