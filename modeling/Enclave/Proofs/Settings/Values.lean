import Enclave.Settings.Decode

/-!
# Settings, one by one

Settings are a record, and each of them has a value of its own type
(`Setting.Value`), which can be read (`Settings.get`), replaced (`Settings.set`) and
decoded (`Setting.decode`) apart from the others. Giving a setting a value is decoding
and replacing it (`Settings.assign_eq`).

So laying members over settings is a matter of the single ones: where no name is given
twice, each setting is decoded from the member with its name, and keeps its value if
there is none (`Settings.foldlM_overlay_eq_ok_iff`).
-/

namespace Enclave

/-- **What a setting holds.** -/
abbrev Setting.Value : Setting → Type
  | .mockSgx => Bool
  | .attestationDir => String
  | .measurementFile => Option String
  | .ioTimeoutSecs => UInt64
  | .maxPayload => UInt64
  | .verifier => VerifierKind
  | .verifierLibrary => String
  | .verifierSymbol => String
  | .pccsUrl => String

/-- **A value for a setting**, as it is decoded. -/
def Setting.decode (j : Json) : (field : Setting) → Except DecodeFault field.Value
  | .mockSgx => j.toBool
  | .attestationDir => j.toText "path string"
  | .measurementFile =>
    match j with
    | .null => .ok none
    | j => some <$> j.toText "path string"
  | .ioTimeoutSecs => j.toUInt64 "u64"
  | .maxPayload => j.toUInt64 "usize"
  | .verifier => VerifierKind.ofJson j
  | .verifierLibrary => j.toText "path string"
  | .verifierSymbol => j.toText "a string"
  | .pccsUrl => j.toText "a string"

namespace Settings

/-- **The value of one setting.** -/
def get (s : Settings) : (field : Setting) → field.Value
  | .mockSgx => s.mockSgx
  | .attestationDir => s.attestationDir
  | .measurementFile => s.measurementFile
  | .ioTimeoutSecs => s.ioTimeoutSecs
  | .maxPayload => s.maxPayload
  | .verifier => s.verifier
  | .verifierLibrary => s.verifierLibrary
  | .verifierSymbol => s.verifierSymbol
  | .pccsUrl => s.pccsUrl

/-- The settings with one of them replaced. -/
def set (s : Settings) : (field : Setting) → field.Value → Settings
  | .mockSgx, v => { s with mockSgx := v }
  | .attestationDir, v => { s with attestationDir := v }
  | .measurementFile, v => { s with measurementFile := v }
  | .ioTimeoutSecs, v => { s with ioTimeoutSecs := v }
  | .maxPayload, v => { s with maxPayload := v }
  | .verifier, v => { s with verifier := v }
  | .verifierLibrary, v => { s with verifierLibrary := v }
  | .verifierSymbol, v => { s with verifierSymbol := v }
  | .pccsUrl, v => { s with pccsUrl := v }

/-- The settings with given values. -/
def ofValues (value : (field : Setting) → field.Value) : Settings where
  mockSgx := value .mockSgx
  attestationDir := value .attestationDir
  measurementFile := value .measurementFile
  ioTimeoutSecs := value .ioTimeoutSecs
  maxPayload := value .maxPayload
  verifier := value .verifier
  verifierLibrary := value .verifierLibrary
  verifierSymbol := value .verifierSymbol
  pccsUrl := value .pccsUrl

variable {s t : Settings}

@[simp] theorem get_set_self (s : Settings) (field : Setting) (v : field.Value) :
    (s.set field v).get field = v := by
  cases field <;> rfl

theorem get_set_of_ne (s : Settings) {field other : Setting} (v : field.Value)
    (h : other ≠ field) : (s.set field v).get other = s.get other := by
  cases field <;> cases other <;> first | rfl | exact absurd rfl h

/-- A setting replaced by its own value stays as it is. -/
theorem set_get (s : Settings) (field : Setting) : s.set field (s.get field) = s := by
  cases field <;> rfl

/-- **Settings with the same values are the same.** -/
theorem ext_get (h : ∀ field, s.get field = t.get field) : s = t := by
  have hs (s : Settings) : ofValues s.get = s := rfl
  rw [← hs s, ← hs t, funext h]

/-- **Giving a setting a value** is decoding it, and replacing that setting alone. -/
theorem assign_eq (s : Settings) (field : Setting) (j : Json) :
    s.assign field j = (field.decode j).map (s.set field) := by
  cases field with
  | measurementFile =>
    cases j <;> rfl
  | _ => rfl

/-- **What is written of a setting is decoded to its value.** -/
theorem decode_of_value? {field : Setting} {j : Json} (h : s.value? field = some j) :
    field.decode j = .ok (s.get field) := by
  have hnumber (n : UInt64) (expected : String) :
      Json.toUInt64 expected (.integer n.toNat) = .ok n := by
    unfold Json.toUInt64
    dsimp only
    rw [if_neg (Int.not_lt.mpr (Int.natCast_nonneg _))]
    exact congrArg Except.ok UInt64.ofNat_toNat
  cases field with
  | mockSgx | attestationDir | verifierLibrary | verifierSymbol | pccsUrl =>
    cases h
    rfl
  | ioTimeoutSecs =>
    cases h
    exact hnumber s.ioTimeoutSecs "u64"
  | maxPayload =>
    cases h
    exact hnumber s.maxPayload "usize"
  | verifier =>
    cases h
    show VerifierKind.ofVariant s.verifier.name = _
    unfold VerifierKind.ofVariant
    rw [VerifierKind.ofName?_name]
    rfl
  | measurementFile =>
    obtain ⟨path, hpath, rfl⟩ := Option.map_eq_some_iff.mp h
    show some <$> Except.ok path = Except.ok s.measurementFile
    rw [hpath]
    rfl

/-- **The members that settings are written as**, one for each setting that has a value. -/
theorem mem_toMembers {member : String × Json} : member ∈ s.toMembers
    ↔ ∃ field, s.value? field = some member.2 ∧ member.1 = field.name := by
  have hall (field : Setting) : field ∈ Setting.all := by cases field <;> decide
  unfold toMembers
  rw [List.mem_filterMap]
  constructor
  · rintro ⟨field, -, h⟩
    obtain ⟨j, hj, rfl⟩ := Option.map_eq_some_iff.mp h
    exact ⟨field, hj, rfl⟩
  · rintro ⟨field, hj, hname⟩
    refine ⟨field, hall field, ?_⟩
    rw [hj, Option.map_some, ← hname]

/-- No setting is written twice. -/
theorem nodup_toMembers (s : Settings) : (s.toMembers.map (·.1)).Nodup := by
  have hnames : (Setting.all.map Setting.name).Nodup := by decide
  refine hnames.sublist ?_
  unfold toMembers
  induction Setting.all with
  | nil => exact List.Sublist.slnil
  | cons field rest ih =>
    rw [List.filterMap_cons]
    cases s.value? field with
    | none => exact ih.cons _
    | some j => exact ih.cons_cons _

end Settings

/-! ## Members laid over settings -/

namespace Setting

/-- A setting is found by its name alone. -/
theorem ofName?_eq_some_iff {name : String} {field : Setting} :
    ofName? name = some field ↔ name = field.name := by
  constructor
  · intro h
    have hname := List.find?_some h
    exact (of_decide_eq_true hname).symm
  · rintro rfl
    exact ofName?_name field

theorem name_inj {field other : Setting} (h : field.name = other.name) : field = other := by
  have hfound := ofName?_name field
  rw [h, ofName?_name] at hfound
  exact (Option.some.inj hfound).symm

/-- **The value that a setting takes**: that of what was found for it, or else one to
fall back on. -/
def take (field : Setting) (found : Option Json) (fallback : field.Value) :
    Except DecodeFault field.Value :=
  match found with
  | some j => field.decode j
  | none => .ok fallback

end Setting

namespace Settings

variable {s t : Settings} {members : List (String × Json)}

/-- **Members are laid over settings one by one**: each setting takes the value of the
member with its name. -/
theorem foldlM_overlay_eq_ok_iff (hnodup : (members.map (·.1)).Nodup) :
    members.foldlM overlay s = .ok t
      ↔ ∀ field : Setting,
        field.take (members.lookup field.name) (s.get field) = .ok (t.get field) := by
  induction members generalizing s with
  | nil =>
    constructor
    · intro h field
      cases h
      rfl
    · intro h
      exact congrArg Except.ok (ext_get fun field => Except.ok.inj (h field))
  | cons member rest ih =>
    obtain ⟨name, j⟩ := member
    obtain ⟨hfresh, hrest⟩ := List.nodup_cons.mp hnodup
    rw [List.foldlM_cons]
    unfold overlay
    cases hname : Setting.ofName? name with
    | none =>
      refine (ih hrest).trans (forall_congr' fun field => ?_)
      have hne : (field.name == name) = false := by
        refine beq_false_of_ne fun heq => ?_
        rw [← heq, Setting.ofName?_name] at hname
        cases hname
      rw [List.lookup_cons, hne]
    | some field =>
      obtain rfl := Setting.ofName?_eq_some_iff.mp hname
      dsimp only
      rw [assign_eq]
      have hself : ((field.name, j) :: rest).lookup field.name = some j := List.lookup_cons_self
      cases hdecode : field.decode j with
      | error fault =>
        refine ⟨nofun, fun h => ?_⟩
        have hfield := h field
        rw [hself] at hfield
        exact absurd (hdecode.symm.trans hfield) nofun
      | ok v =>
        refine (ih hrest).trans (forall_congr' fun other => ?_)
        by_cases hother : other = field
        · subst hother
          have hgone : rest.lookup other.name = none := by
            rw [List.lookup_eq_none_iff]
            intro entry hentry
            rw [bne_iff_ne]
            intro heq
            exact hfresh (List.mem_map.mpr ⟨entry, hentry, heq.symm⟩)
          rw [hself, hgone, get_set_self]
          show Except.ok v = _ ↔ other.decode j = _
          rw [hdecode]
        · have hne : (other.name == field.name) = false :=
            beq_false_of_ne fun heq => hother (Setting.name_inj heq)
          rw [List.lookup_cons, hne, get_set_of_ne s v hother]

end Settings

end Enclave
