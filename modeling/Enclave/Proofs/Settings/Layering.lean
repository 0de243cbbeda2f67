import Enclave.Proofs.Settings.Values
import Enclave.Settings.Layers
import Mathlib.Data.List.Induction
import Mathlib.Data.List.Nodup

/-!
# The highest layer that mentions a setting decides

Layers are lists of what a place mentions, and what is mentioned again replaces what
stood there (`Layer.mention?`). Laid over each other they come to one list without
repetitions, in which a name stands for what the highest layer that mentions it says
(`Layer.lookup_foldl_onto`). Only then anything is decoded, setting by setting, so that
what is covered is never looked at.

`Settings.ofLayers_eq_ok_iff` puts both together: the settings in layers are those
whose values are decoded from the highest mention of each, and are the defaults where
there is none. If one of these values cannot be decoded, there are no settings, and the
error is that of the first in the order of the names (`Settings.ofLayers_eq_error`).
Nothing but the highest mentions has a part in this (`Settings.ofLayers_congr`).
-/

namespace Enclave

variable {name other : String} {value : Json}

/-! ## Members with one more -/

namespace Json

variable {members : List (String × Json)}

/-- A member that was put under a name is found there, and every other one as before. -/
theorem lookup_putMember :
    (putMember members name value).lookup other
      = if other = name then some value else members.lookup other := by
  induction members with
  | nil =>
    show List.lookup other [(name, value)] = _
    rw [List.lookup_cons]
    by_cases h : other = name
    · rw [if_pos h, beq_iff_eq.mpr h]
    · rw [if_neg h, beq_false_of_ne h]
  | cons member rest ih =>
    obtain ⟨n, v⟩ := member
    unfold putMember
    by_cases hn : n = name
    · rw [if_pos hn, List.lookup_cons, List.lookup_cons]
      by_cases h : other = name
      · rw [if_pos h, beq_iff_eq.mpr h]
      · rw [if_neg h, beq_false_of_ne h, beq_false_of_ne (hn ▸ h)]
    · rw [if_neg hn, List.lookup_cons, List.lookup_cons, ih]
      by_cases h : other = n
      · have hname : other ≠ name := fun heq => hn (h.symm.trans heq)
        rw [beq_iff_eq.mpr h, if_neg hname, if_neg hname]
      · rw [beq_false_of_ne h]

/-- **A member keeps the place of the one that it replaces**, and a new one is the last. -/
theorem names_putMember : (putMember members name value).map (·.1)
    = if name ∈ members.map (·.1) then members.map (·.1) else members.map (·.1) ++ [name] := by
  induction members with
  | nil => rfl
  | cons member rest ih =>
    obtain ⟨n, v⟩ := member
    unfold putMember
    by_cases hn : n = name
    · subst hn
      rw [if_pos rfl, List.map_cons, List.map_cons, if_pos List.mem_cons_self]
    · rw [if_neg hn, List.map_cons, ih, List.map_cons]
      have hmem : name ∈ n :: rest.map (·.1) ↔ name ∈ rest.map (·.1) := by
        rw [List.mem_cons]
        exact or_iff_right (Ne.symm hn)
      simp only [hmem]
      split <;> rfl

/-- Where no name is given twice, what is given for a name is found under it. -/
theorem lookup_of_mem (hnodup : (members.map (·.1)).Nodup) (h : (name, value) ∈ members) :
    members.lookup name = some value := by
  induction members with
  | nil => cases h
  | cons member rest ih =>
    obtain ⟨hfresh, hrest⟩ := List.nodup_cons.mp hnodup
    rcases List.mem_cons.mp h with rfl | hmem
    · exact List.lookup_cons_self
    · have hne : (name == member.1) = false := by
        refine beq_false_of_ne ?_
        rintro rfl
        exact hfresh (List.mem_map.mpr ⟨_, hmem, rfl⟩)
      rw [List.lookup_cons, hne]
      exact ih hrest hmem

/-- No name is given twice. -/
theorem nodup_putMember (h : (members.map (·.1)).Nodup) :
    ((putMember members name value).map (·.1)).Nodup := by
  rw [names_putMember]
  by_cases hold : name ∈ members.map (·.1)
  · rwa [if_pos hold]
  · rw [if_neg hold, ← List.concat_eq_append]
    exact h.concat hold

end Json

/-! ## Layers -/

namespace Layer

/-- **What a layer mentions for a name**: what it says last. -/
def mention? (layer : Layer) (name : String) : Option Json := layer.reverse.lookup name

@[simp] theorem mention?_nil : mention? [] name = none := rfl

theorem mention?_concat (layer : Layer) :
    mention? (layer ++ [(other, value)]) name
      = if name = other then some value else layer.mention? name := by
  unfold mention?
  rw [List.reverse_concat, List.lookup_cons]
  by_cases h : name = other
  · rw [if_pos h, beq_iff_eq.mpr h]
  · rw [if_neg h, beq_false_of_ne h]

theorem mention?_append (layer layer' : Layer) :
    mention? (layer ++ layer') name = (layer'.mention? name).or (layer.mention? name) := by
  unfold mention?
  rw [List.reverse_append, List.lookup_append]

/-- **One layer over another**: what the upper one mentions counts. -/
theorem lookup_onto (upper lower : Layer) :
    (onto upper lower).lookup name = (upper.mention? name).or (lower.lookup name) := by
  induction upper using List.reverseRecOn with
  | nil => rfl
  | append_singleton upper last ih =>
    obtain ⟨n, v⟩ := last
    unfold onto at ih ⊢
    rw [List.foldl_append, List.foldl_cons, List.foldl_nil, Json.lookup_putMember, ih,
      mention?_concat]
    by_cases h : name = n
    · rw [if_pos h, if_pos h, Option.some_or]
    · rw [if_neg h, if_neg h]

theorem nodup_onto (upper : Layer) {lower : Layer} (h : (lower.map (·.1)).Nodup) :
    ((onto upper lower).map (·.1)).Nodup := by
  unfold onto
  induction upper generalizing lower with
  | nil => exact h
  | cons member upper ih => exact ih (Json.nodup_putMember h)

/-- **What the highest of some layers that mentions a name says.** The lowest layer
comes first. -/
def highest? (layers : List Layer) (name : String) : Option Json :=
  layers.reverse.findSome? (·.mention? name)

/-- **Layers over each other**: the highest mention counts. -/
theorem lookup_foldl_onto (layers : List Layer) (base : Layer) :
    (layers.foldl (fun lower upper => onto upper lower) base).lookup name
      = (highest? layers name).or (base.lookup name) := by
  induction layers using List.reverseRecOn with
  | nil => rfl
  | append_singleton layers last ih =>
    unfold highest? at ih ⊢
    rw [List.foldl_append, List.foldl_cons, List.foldl_nil, lookup_onto, ih, List.reverse_concat,
      List.findSome?_cons]
    cases last.mention? name <;> rfl

/-- Where no name is mentioned twice, the one mention is found. -/
theorem mention?_of_nodup {layer : Layer} (h : (layer.map (·.1)).Nodup) :
    layer.mention? name = layer.lookup name := by
  induction layer with
  | nil => rfl
  | cons member layer ih =>
    obtain ⟨n, v⟩ := member
    obtain ⟨hfresh, hrest⟩ := List.nodup_cons.mp h
    have hsplit : mention? ((n, v) :: layer) name
        = (mention? layer name).or (mention? [(n, v)] name) := mention?_append [(n, v)] layer
    rw [hsplit, ih hrest, List.lookup_cons]
    by_cases hn : name = n
    · have hgone : layer.lookup name = none := by
        rw [List.lookup_eq_none_iff]
        intro entry hentry
        rw [bne_iff_ne]
        intro heq
        exact hfresh (hn ▸ List.mem_map.mpr ⟨entry, hentry, heq.symm⟩)
      rw [hgone, beq_iff_eq.mpr hn, Option.none_or]
      exact (mention?_concat []).trans (if_pos hn)
    · rw [beq_false_of_ne hn]
      have hnone : mention? [(n, v)] name = none := (mention?_concat []).trans (if_neg hn)
      rw [hnone, Option.or_none]

/-- A layer mentions nothing for a name that it does not hold. -/
theorem mention?_eq_none {layer : Layer} (h : ∀ j, (name, j) ∉ layer) :
    mention? layer name = none := by
  unfold mention?
  rw [List.lookup_eq_none_iff]
  intro entry hentry
  rw [bne_iff_ne]
  rintro rfl
  exact h entry.2 (List.mem_reverse.mp hentry)

/-- A layer that says one thing for a name mentions it. -/
theorem mention?_of_mem {layer : Layer} (h : (name, value) ∈ layer)
    (hone : ∀ j, (name, j) ∈ layer → j = value) : mention? layer name = some value := by
  cases hmention : mention? layer name with
  | none =>
    unfold mention? at hmention
    rw [List.lookup_eq_none_iff] at hmention
    exact absurd rfl (bne_iff_ne.mp (hmention _ (List.mem_reverse.mpr h)))
  | some j =>
    obtain ⟨before, after, hsplit, -⟩ := List.lookup_eq_some_iff.mp hmention
    have hmem : (name, j) ∈ layer := by
      rw [← List.mem_reverse, hsplit]
      exact List.mem_append_right _ List.mem_cons_self
    rw [hone j hmem]

end Layer

/-! ## Settings in layers -/

namespace Settings

variable {s t : Settings} {layers : List Layer}

/-- A setting that is found nowhere else takes its default. -/
theorem take_lookup_default (field : Setting) :
    field.take ((toMembers {}).lookup field.name) (({} : Settings).get field)
      = .ok (({} : Settings).get field) := by
  have hlookup : (toMembers {}).lookup field.name = ({} : Settings).value? field := by
    cases field <;> rfl
  rw [hlookup]
  cases hvalue : ({} : Settings).value? field with
  | none => rfl
  | some j => exact decode_of_value? hvalue

/-- **The value of a setting in layers**: what the highest layer that mentions it says,
and the default where none does. -/
def layered (layers : List Layer) (field : Setting) : Except DecodeFault field.Value :=
  field.take (Layer.highest? layers field.name) (({} : Settings).get field)

/-- **It is the value that is found** once the layers are laid over the defaults. -/
theorem take_lookup_merged (layers : List Layer) (field : Setting) :
    field.take ((merged layers).lookup field.name) (({} : Settings).get field)
      = layered layers field := by
  unfold layered merged
  rw [Layer.lookup_foldl_onto]
  cases Layer.highest? layers field.name with
  | some j => rfl
  | none => exact take_lookup_default field

/-- **Every setting has its place** in the order of the names. -/
theorem mem_alphabetical (field : Setting) : field ∈ Setting.alphabetical := by
  cases field <;> decide

theorem nodup_alphabetical : Setting.alphabetical.Nodup := by decide

/-- **The order of the names** is the one in which the settings stand. -/
theorem mem_before_of_name_lt {before after : List Setting} {field other : Setting}
    (hsplit : Setting.alphabetical = before ++ field :: after) (h : other.name < field.name) :
    other ∈ before := by
  have hsorted : Setting.alphabetical.Pairwise (·.name < ·.name) := by decide
  have hmem := mem_alphabetical other
  rw [hsplit] at hsorted hmem
  have hafter := (List.pairwise_cons.mp (List.pairwise_append.mp hsorted).2.1).1
  rcases List.mem_append.mp hmem with hbefore | hrest
  · exact hbefore
  · rcases List.mem_cons.mp hrest with rfl | hlater
    · exact absurd h (String.lt_irrefl _)
    · exact absurd h (String.lt_asymm (hafter other hlater))

variable {found : Layer} {fields : List Setting}

/-- One setting is extracted by taking what is found for it. -/
theorem extractOne_eq (s : Settings) (field : Setting) :
    extractOne found s field
      = match field.take (found.lookup field.name) (s.get field) with
        | .ok v => .ok (s.set field v)
        | .error fault => .error (.value field fault) := by
  unfold extractOne
  cases found.lookup field.name with
  | none => exact congrArg Except.ok (set_get s field).symm
  | some j =>
    dsimp only [Setting.take]
    rw [assign_eq]
    cases field.decode j <;> rfl

/-- **Some settings are extracted one by one**: each takes what is found for it, and all
others stay as they are. -/
theorem foldlM_extractOne_eq_ok_iff (found : Layer) (hnodup : fields.Nodup) :
    fields.foldlM (extractOne found) s = .ok t
      ↔ ∀ field, (if field ∈ fields then
          field.take (found.lookup field.name) (s.get field) else .ok (s.get field))
        = .ok (t.get field) := by
  induction fields generalizing s with
  | nil =>
    show Except.ok s = Except.ok t ↔ _
    simp only [List.not_mem_nil, if_false, Except.ok.injEq]
    exact ⟨fun h field => h ▸ rfl, ext_get⟩
  | cons first rest ih =>
    obtain ⟨hfresh, hrest⟩ := List.nodup_cons.mp hnodup
    rw [List.foldlM_cons, extractOne_eq]
    cases htake : first.take (found.lookup first.name) (s.get first) with
    | error fault =>
      refine ⟨nofun, fun h => ?_⟩
      have hfirst := h first
      rw [if_pos List.mem_cons_self, htake] at hfirst
      cases hfirst
    | ok v =>
      refine (ih hrest).trans (forall_congr' fun field => ?_)
      by_cases hfield : field = first
      · subst hfield
        rw [if_neg hfresh, if_pos List.mem_cons_self, get_set_self, htake]
      · rw [get_set_of_ne s v hfield]
        simp only [List.mem_cons, hfield, false_or]

/-- **Extracting settings one by one fails** at the first for which something is found that
cannot be decoded. -/
theorem exists_fault_of_foldlM_extractOne {fault : LayerFault}
    (h : fields.foldlM (extractOne found) s = .error fault) :
    ∃ before field after j cause, fields = before ++ field :: after
      ∧ found.lookup field.name = some j ∧ field.decode j = .error cause
      ∧ fault = .value field cause
      ∧ ∀ other ∈ before, ∀ j, found.lookup other.name = some j → ∃ v, other.decode j = .ok v := by
  induction fields generalizing s with
  | nil => cases h
  | cons first rest ih =>
    rw [List.foldlM_cons, extractOne_eq] at h
    cases hfound : found.lookup first.name with
    | none =>
      rw [hfound] at h
      obtain ⟨before, field, after, j, cause, rfl, hj, hcause, hfault, hbefore⟩ := ih h
      refine ⟨first :: before, field, after, j, cause, rfl, hj, hcause, hfault, ?_⟩
      rintro other (- | ⟨_, hother⟩) j hj
      · cases hfound.symm.trans hj
      · exact hbefore other hother j hj
    | some j =>
      rw [hfound] at h
      cases hdecode : first.decode j with
      | error cause =>
        dsimp only [Setting.take] at h
        rw [hdecode] at h
        cases h
        exact ⟨[], first, rest, j, cause, rfl, hfound, hdecode, rfl, nofun⟩
      | ok v =>
        dsimp only [Setting.take] at h
        rw [hdecode] at h
        obtain ⟨before, field, after, j', cause, rfl, hj', hcause, hfault, hbefore⟩ := ih h
        refine ⟨first :: before, field, after, j', cause, rfl, hj', hcause, hfault, ?_⟩
        rintro other (- | ⟨_, hother⟩) j'' hj''
        · cases hfound.symm.trans hj''
          exact ⟨v, hdecode⟩
        · exact hbefore other hother j'' hj''

/-- **The settings in layers** are those of which each has the value that the highest
mention of it is decoded to, or the default if there is none. -/
theorem ofLayers_eq_ok_iff :
    ofLayers layers = .ok s ↔ ∀ field, layered layers field = .ok (s.get field) := by
  have hextracted := foldlM_extractOne_eq_ok_iff (s := {}) (t := s) (merged layers)
    nodup_alphabetical
  simp only [mem_alphabetical, if_true, take_lookup_merged] at hextracted
  rw [← hextracted]
  unfold ofLayers
  cases Setting.alphabetical.foldlM (extractOne (merged layers)) {} with
  | ok t =>
    show Except.ok t = Except.ok s ↔ _
    rw [Except.ok.injEq, Except.ok.injEq]
  | error fault => exact ⟨nofun, nofun⟩

/-- **There are no settings in layers** if the highest mention of one cannot be
decoded, and the error tells of such a mention: that of the first setting, in the order
of the names, for which it cannot. -/
theorem ofLayers_eq_error {e : SettingsError} (h : ofLayers layers = .error e) :
    ∃ field fault, layered layers field = .error fault
      ∧ e = .undecodable (.value field fault)
      ∧ ∀ other : Setting, other.name < field.name → ∃ v, layered layers other = .ok v := by
  unfold ofLayers at h
  cases hfold : Setting.alphabetical.foldlM (extractOne (merged layers)) {} with
  | ok t =>
    rw [hfold] at h
    cases h
  | error fault =>
    rw [hfold] at h
    cases h
    obtain ⟨before, field, after, j, cause, hsplit, hj, hcause, rfl, hbefore⟩ :=
      exists_fault_of_foldlM_extractOne hfold
    refine ⟨field, cause, ?_, rfl, fun other hother => ?_⟩
    · rw [← take_lookup_merged, hj]
      exact hcause
    have hmem := mem_before_of_name_lt hsplit hother
    rw [← take_lookup_merged]
    cases hfound : (merged layers).lookup other.name with
    | none => exact ⟨_, rfl⟩
    | some j' => exact hbefore other hmem j' hfound

/-- **Nothing but the highest mentions of settings matters**, for the settings and for the
error. -/
theorem ofLayers_congr {layers' : List Layer}
    (h : ∀ field : Setting, Layer.highest? layers field.name = Layer.highest? layers' field.name) :
    ofLayers layers = ofLayers layers' := by
  have hextractOne : extractOne (merged layers) = extractOne (merged layers') := by
    funext s field
    unfold extractOne merged
    rw [Layer.lookup_foldl_onto, Layer.lookup_foldl_onto, h]
  unfold ofLayers
  rw [hextractOne]

/-! ## The settings of a run -/

/-- The layer of a settings file, if there is one. -/
def layerOf (file : Option Bytes) : Except SettingsError Layer :=
  match file with
  | some content => fileLayer content
  | none => .ok []

/-- **What is extracted from the file, the environment and the command line**, before
anybody asks whether it makes sense. -/
def extract (file : Option Bytes) (environment : List (String × String)) (flags : Layer) :
    Except SettingsError Settings := do
  ofLayers [← layerOf file, variableLayer environment, flags]

/-- **The settings of a run** are what is extracted, if it makes sense. -/
theorem load_eq (file : Option Bytes) (environment : List (String × String)) (flags : Layer) :
    load file environment flags
      = match extract file environment flags with
        | .error e => .error e
        | .ok s =>
          match s.validate with
          | .ok _ => .ok s
          | .error e => .error (.refused e) := by
  have hchecked (r : Except SettingsError Settings) :
      (do let s ← r; s.validate.mapError .refused; return s)
        = match r with
          | .error e => .error e
          | .ok s =>
            match s.validate with
            | .ok _ => .ok s
            | .error e => .error (.refused e) := by
    cases r with
    | error e => rfl
    | ok s =>
      show (s.validate.mapError SettingsError.refused >>= fun _ => pure s) = _
      dsimp only
      cases s.validate <;> rfl
  unfold load extract layerOf
  cases file with
  | none => exact hchecked _
  | some content =>
    dsimp only
    cases fileLayer content with
    | error e => rfl
    | ok fromFile => exact hchecked _

theorem load_eq_ok_iff {file : Option Bytes} {environment : List (String × String)}
    {flags : Layer} : load file environment flags = .ok s
      ↔ extract file environment flags = .ok s ∧ s.validate = .ok () := by
  rw [load_eq]
  cases extract file environment flags with
  | error e => exact ⟨nofun, fun h => absurd h.1 nofun⟩
  | ok t =>
    dsimp only
    cases hvalid : t.validate with
    | ok _ =>
      constructor
      · intro h
        cases h
        exact ⟨rfl, hvalid⟩
      · exact fun h => h.1
    | error e =>
      refine ⟨nofun, fun h => ?_⟩
      obtain ⟨hok, hs⟩ := h
      cases hok
      exact absurd (hvalid.symm.trans hs) nofun

end Settings

end Enclave
