import Enclave.Proofs.Settings.Layering
import Mathlib.Data.Finset.Basic

/-!
# What is not given takes its default

Defaults are stated twice: for all settings at once, as the settings of somebody who
chose nothing, and for every single one, as what stands in for a member that an object
does not have (`Setting.missing`). An object may accordingly be decoded in two ways. One
lays its members over the settings that nobody chose. The other collects what is given
for each setting, and in the end fills in the ones that were not found. They come to
the same, in success and in failure (`Settings.ofJson_object`).

`Settings.decode_restores_given` is about any part of what some settings are written
as, in any order and among members that are for no setting. What is in the part is
decoded to what it was, and the rest to the defaults. The only setting that may have no
member of its own, the measurement file, is no exception, since to have none is the
default.
-/

namespace Enclave

/-- **What stands in for a setting that is missing.** -/
def Setting.missing : (field : Setting) → field.Value
  | .mockSgx => false
  | .attestationDir => PseudoFiles.defaultRoot
  | .measurementFile => none
  | .ioTimeoutSecs => 30
  | .maxPayload => UInt64.ofNat Sealer.defaultMaxPayload
  | .verifier => .dylib
  | .verifierLibrary => "libra_tls_verify_dcap.so"
  | .verifierSymbol => "gramine_verify_quote"
  | .pccsUrl => "https://localhost:8081/sgx/certification/v4/"

namespace Settings

/-! ## Setting by setting -/

/-- **What was found for the single settings.** -/
abbrev Found := (field : Setting) → Option field.Value

namespace Found

/-- Nothing was found yet. -/
def nothing : Found := fun _ => none

/-- **A member that is found**, if its name is that of a setting. -/
def collect (found : Found) (member : String × Json) : Except DecodeFault Found :=
  match Setting.ofName? member.1 with
  | some field => do return Function.update found field (some (← field.decode member.2))
  | none => .ok found

/-- **The settings that were found**, where each that is missing takes its default. -/
def complete (found : Found) : Settings :=
  ofValues fun field => (found field).getD field.missing

end Found

variable {s t : Settings}

theorem get_ofValues (value : (field : Setting) → field.Value) (field : Setting) :
    (ofValues value).get field = value field := by
  cases field <;> rfl

/-- **The two statements of the defaults agree.** -/
theorem complete_nothing : Found.nothing.complete = {} := rfl

theorem get_default (field : Setting) : ({} : Settings).get field = field.missing := by
  rw [← complete_nothing]
  exact get_ofValues _ field

/-- One more setting that is found is one setting replaced. -/
theorem complete_update (found : Found) (field : Setting) (v : field.Value) :
    Found.complete (Function.update found field (some v)) = found.complete.set field v := by
  refine ext_get fun other => ?_
  unfold Found.complete
  rw [get_ofValues]
  by_cases h : other = field
  · subst h
    rw [Function.update_self, get_set_self, Option.getD_some]
  · rw [Function.update_of_ne h, get_set_of_ne _ _ h, get_ofValues]

/-- Finding a member and laying it over settings come to the same. -/
theorem overlay_complete (found : Found) (member : String × Json) :
    found.complete.overlay member = Found.complete <$> found.collect member := by
  unfold overlay Found.collect
  cases Setting.ofName? member.1 with
  | none => rfl
  | some field =>
    dsimp only
    rw [assign_eq]
    cases field.decode member.2 with
    | error fault => rfl
    | ok v => exact congrArg Except.ok (complete_update found field v).symm

theorem foldlM_overlay_complete (members : List (String × Json)) (found : Found) :
    members.foldlM overlay found.complete
      = Found.complete <$> members.foldlM Found.collect found := by
  induction members generalizing found with
  | nil => rfl
  | cons member rest ih =>
    rw [List.foldlM_cons, List.foldlM_cons, overlay_complete]
    cases found.collect member with
    | error fault => rfl
    | ok found' => exact ih found'

/-- **An object is decoded setting by setting**, and what is missing takes its default. -/
theorem ofJson_object (members : List (String × Json)) :
    ofJson (.object members) = Found.complete <$> members.foldlM Found.collect .nothing :=
  foldlM_overlay_complete members .nothing

/-! ## A part of what was written -/

/-- **Members that are for no setting do not matter.** -/
theorem foldlM_overlay_filter (members : List (String × Json)) :
    members.foldlM overlay s
      = (members.filter fun member => (Setting.ofName? member.1).isSome).foldlM overlay s := by
  induction members generalizing s with
  | nil => rfl
  | cons member rest ih =>
    cases hname : Setting.ofName? member.1 with
    | none =>
      rw [List.filter_cons_of_neg (by simp [hname]), List.foldlM_cons, overlay, hname]
      exact ih
    | some field =>
      rw [List.filter_cons_of_pos (by simp [hname]), List.foldlM_cons, List.foldlM_cons]
      exact congrArg _ (funext fun _ => ih)

/-- **The part of what settings are written as** that is for some of them. -/
def membersFor (s : Settings) (fields : Finset Setting) : List (String × Json) :=
  s.toMembers.filter fun member => ∃ field ∈ fields, member.1 = field.name

variable {fields : Finset Setting} {field : Setting} {j : Json}
  {members extra : List (String × Json)}

theorem mem_membersFor :
    (field.name, j) ∈ s.membersFor fields ↔ field ∈ fields ∧ s.value? field = some j := by
  unfold membersFor
  rw [List.mem_filter, mem_toMembers, decide_eq_true_iff]
  constructor
  · rintro ⟨⟨other, hvalue, hother⟩, other', hmem, hother'⟩
    rw [Setting.name_inj hother, ← hvalue]
    exact ⟨Setting.name_inj (hother.symm.trans hother') ▸ hmem, rfl⟩
  · rintro ⟨hmem, hvalue⟩
    exact ⟨⟨field, hvalue, rfl⟩, field, hmem, rfl⟩

theorem nodup_membersFor (s : Settings) (fields : Finset Setting) :
    ((s.membersFor fields).map (·.1)).Nodup :=
  (nodup_toMembers s).sublist (List.filter_sublist.map _)

/-- **Of some members, those for settings** are the part that they were put together
with. -/
theorem perm_filter_isSome (hextra : ∀ member ∈ extra, ∀ field : Setting, member.1 ≠ field.name)
    (hperm : members.Perm (s.membersFor fields ++ extra)) :
    (members.filter fun member => (Setting.ofName? member.1).isSome).Perm
      (s.membersFor fields) := by
  have hpart : ∀ member ∈ s.membersFor fields, (Setting.ofName? member.1).isSome := by
    intro member hmember
    obtain ⟨field, -, hname⟩ := of_decide_eq_true (List.mem_filter.mp hmember).2
    rw [hname, Setting.ofName?_name]
    rfl
  have hrest : ∀ member ∈ extra, ¬ (Setting.ofName? member.1).isSome := by
    intro member hmember hsome
    obtain ⟨field, hfield⟩ := Option.isSome_iff_exists.mp hsome
    exact hextra member hmember field (Setting.ofName?_eq_some_iff.mp hfield)
  have hfilter := hperm.filter fun member => (Setting.ofName? member.1).isSome
  rwa [List.filter_append, List.filter_eq_self.mpr hpart, List.filter_eq_nil_iff.mpr hrest,
    List.append_nil] at hfilter

/-- A setting without a value of its own has its default. -/
theorem get_of_value?_eq_none (h : s.value? field = none) : s.get field = field.missing := by
  cases field with
  | measurementFile => exact Option.map_eq_none_iff.mp h
  | _ => cases h

/-- **What a setting takes from a part of what was written**: what it was, if the part
is for it, and its default otherwise. -/
theorem take_of_perm_membersFor (hperm : members.Perm (s.membersFor fields)) (field : Setting) :
    field.take (members.lookup field.name) field.missing
      = .ok (if field ∈ fields then s.get field else field.missing) := by
  have hnodup : (members.map (·.1)).Nodup :=
    (hperm.map (·.1)).nodup_iff.mpr (nodup_membersFor s fields)
  have hmem (j : Json) : (field.name, j) ∈ members ↔ field ∈ fields ∧ s.value? field = some j :=
    hperm.mem_iff.trans mem_membersFor
  have hmissing (h : ∀ j, (field.name, j) ∉ members) :
      field.take (members.lookup field.name) field.missing = .ok field.missing := by
    have hnone : members.lookup field.name = none := by
      rw [List.lookup_eq_none_iff]
      rintro ⟨name, j⟩ hmember
      rw [bne_iff_ne]
      rintro rfl
      exact h j hmember
    rw [hnone]
    rfl
  by_cases hfield : field ∈ fields
  case neg =>
    rw [if_neg hfield]
    exact hmissing fun j h => hfield ((hmem j).mp h).1
  rw [if_pos hfield]
  cases hvalue : s.value? field with
  | none =>
    rw [get_of_value?_eq_none hvalue]
    exact hmissing fun j h => nomatch hvalue.symm.trans ((hmem j).mp h).2
  | some j =>
    rw [Json.lookup_of_mem hnodup ((hmem j).mpr ⟨hfield, hvalue⟩)]
    exact decode_of_value? hvalue

/-- **Settings of which only some are chosen**: the others have their defaults. -/
def choosing (s : Settings) (fields : Finset Setting) : Settings :=
  ofValues fun field => if field ∈ fields then s.get field else field.missing

theorem get_choosing (s : Settings) (fields : Finset Setting) (field : Setting) :
    (s.choosing fields).get field = if field ∈ fields then s.get field else field.missing :=
  get_ofValues _ field

/-- **A part of what settings are written as** is decoded to these settings. -/
theorem ofJson_of_perm (hextra : ∀ member ∈ extra, ∀ field : Setting, member.1 ≠ field.name)
    (hperm : members.Perm (s.membersFor fields ++ extra)) :
    ofJson (.object members) = .ok (s.choosing fields) := by
  have hpart := perm_filter_isSome hextra hperm
  have hnodup := (hpart.map (·.1)).nodup_iff.mpr (nodup_membersFor s fields)
  show members.foldlM overlay {} = _
  rw [foldlM_overlay_filter, foldlM_overlay_eq_ok_iff hnodup]
  intro field
  rw [get_default, take_of_perm_membersFor hpart, get_choosing]

/-- **Settings that are written are decoded again.** -/
theorem ofJson_toJson (s : Settings) : ofJson s.toJson = .ok s := by
  have hall (field : Setting) : field ∈ Setting.all.toFinset := by cases field <;> decide
  have hmembers : s.membersFor Setting.all.toFinset = s.toMembers := by
    refine List.filter_eq_self.mpr fun member hmember => decide_eq_true ?_
    obtain ⟨field, -, hname⟩ := mem_toMembers.mp hmember
    exact ⟨field, hall field, hname⟩
  have hchoosing : s.choosing Setting.all.toFinset = s := by
    refine ext_get fun field => ?_
    rw [get_choosing, if_pos (hall field)]
  have hperm : s.toMembers.Perm (s.membersFor Setting.all.toFinset ++ []) := by
    rw [List.append_nil, hmembers]
  refine (ofJson_of_perm (fun _ h => absurd h List.not_mem_nil) hperm).trans ?_
  rw [hchoosing]

/-- **Decoding restores what is given**, and takes the defaults for what is not. Of the
members that settings are written as, those for some of the settings are given, in any
order and among others that are for no setting. Then the settings that are decoded have
the same values for these, and the defaults for the others. In particular settings are
restored from all of their members, and from none of them the defaults.

What an object is decoded to, or the fault in it, is always that of its members found one
after the other, where each setting that is not found takes the default of its own. -/
theorem decode_restores_given (s : Settings) (fields : Finset Setting)
    (extra members : List (String × Json))
    (hextra : ∀ member ∈ extra, ∀ field : Setting, member.1 ≠ field.name)
    (hperm : members.Perm (s.membersFor fields ++ extra)) :
    (∃ t, ofJson (.object members) = .ok t
        ∧ ∀ field, t.get field
          = if field ∈ fields then s.get field else ({} : Settings).get field)
      ∧ ofJson s.toJson = .ok s ∧ ofJson (.object []) = .ok {}
      ∧ ∀ given, ofJson (.object given) = Found.complete <$> given.foldlM Found.collect .nothing := by
  refine ⟨⟨_, ofJson_of_perm hextra hperm, fun field => ?_⟩, ofJson_toJson s, rfl, ofJson_object⟩
  rw [get_default, get_choosing]

/-- Two settings of three that were chosen, given in the other order and with a member
that is for none. -/
theorem decode_restores_given_two :
    let s : Settings := { mockSgx := true, maxPayload := 5, measurementFile := some "m" }
    ∃ t, ofJson (.object [("measurement_file", .string "m"), ("other", .null),
        ("mock_sgx", .bool true)]) = .ok t
      ∧ ∀ field, t.get field
        = if field ∈ ({.mockSgx, .measurementFile} : Finset Setting) then s.get field
          else ({} : Settings).get field := by
  intro s
  have hextra : ∀ member ∈ [("other", Json.null)], ∀ field : Setting, member.1 ≠ field.name := by
    intro member hmember field
    rw [List.mem_singleton.mp hmember]
    cases field <;> decide
  exact (decode_restores_given s {.mockSgx, .measurementFile} [("other", .null)] _ hextra
    (List.perm_append_singleton ("mock_sgx", Json.bool true)
      [("measurement_file", Json.string "m"), ("other", Json.null)])).1

end Settings

end Enclave
