import Enclave.Proofs.Command.Insertion
import Enclave.Proofs.Command.Precedence
import Enclave.Proofs.Settings.Literals

/-!
# A text from a variable or from a flag

Two paths, a library and a service can be given to a setting by a variable or by a flag.
A flag gives the text itself, while a variable gives what its value is as a literal. The
settings of a run depend on nothing but the highest mention of each setting
(`Settings.load_congr`), and the files that are looked for on nothing but the choice of
the settings file (`loadSettings_congr`). So where the variable stands for a text, loading
comes to what it comes to with a flag for that text, in success and in failure
(`Setting.LeftTo.load_withText`), and where it stands for anything else, there are no
settings (`Setting.LeftTo.load_of_not_text`).

`loadSettings_variable_or_flag` puts this together: a variable and a flag with the same
text agree unless the text looks like a literal, and any text can be given by a variable
in quotes.
-/

namespace Enclave

/-! ## One more variable -/

namespace Settings

variable {before after : List (String × String)} {field : Setting} {name value : String}

/-- What variables mention, those in front first. -/
theorem mention?_variableLayer_append (before after : List (String × String)) (name : String) :
    (variableLayer (before ++ after)).mention? name
      = ((variableLayer after).mention? name).or ((variableLayer before).mention? name) := by
  rw [mention?_variableLayer_eq, mention?_variableLayer_eq, mention?_variableLayer_eq,
    ← Layer.mention?_append]
  unfold variableMentions
  rw [List.filterMap_append]

/-- **One variable for a setting** mentions that setting, and nothing else. -/
theorem mention?_variableLayer_singleton (h : field.Spelled name) (other : Setting) :
    (variableLayer [(name, value)]).mention? other.name
      = if other = field then some (variableValue field.name value) else none := by
  have hmentions : variableMentions [(name, value)]
      = [(field.name, variableValue field.name value)] :=
    List.filterMap_cons_some (variableMention?_of_spelled h value)
  rw [mention?_variableLayer_eq, hmentions]
  refine (Layer.mention?_concat []).trans ?_
  rw [Layer.mention?_nil]
  by_cases hother : other = field
  · rw [if_pos hother, if_pos (congrArg Setting.name hother)]
  · rw [if_neg hother, if_neg fun hname => hother (Setting.name_inj hname)]

/-- **A setting is mentioned by the last variable for it.** -/
theorem mention?_variableLayer_self (h : field.Spelled name)
    (hlast : (variableLayer after).mention? field.name = none) :
    (variableLayer (before ++ (name, value) :: after)).mention? field.name
      = some (variableValue field.name value) := by
  rw [mention?_variableLayer_append, ← List.singleton_append, mention?_variableLayer_append, hlast,
    mention?_variableLayer_singleton h, if_pos rfl]
  rfl

/-- **The other settings are mentioned as without it.** -/
theorem mention?_variableLayer_of_ne (h : field.Spelled name) {other : Setting}
    (hother : other ≠ field) :
    (variableLayer (before ++ (name, value) :: after)).mention? other.name
      = (variableLayer (before ++ after)).mention? other.name := by
  rw [mention?_variableLayer_append, ← List.singleton_append, mention?_variableLayer_append,
    mention?_variableLayer_append before, mention?_variableLayer_singleton h, if_neg hother,
    Option.or_none]

/-- **Which settings file is chosen** does not depend on a variable for a setting. -/
theorem lookup_configVariable (h : field.Spelled name) :
    (before ++ (name, value) :: after).lookup Invocation.configVariable
      = (before ++ after).lookup Invocation.configVariable := by
  have hne : Invocation.configVariable ≠ name := by
    rintro rfl
    unfold Setting.Spelled at h
    revert h
    cases field <;> decide
  rw [List.lookup_append, List.lookup_append, List.lookup_cons, beq_false_of_ne hne]

end Settings

/-! ## Loading -/

section

variable {m : Type → Type} [Monad m] {environment environment' : List (String × String)}
  {i i' : Invocation}

/-- **The settings of a run depend on the highest mentions alone**, and so does the error
if there are none. -/
theorem Settings.load_congr
    (h : ∀ fromFile field, highest? i environment fromFile field
      = highest? i' environment' fromFile field) (file : Option Bytes) :
    load file environment i.mentions = load file environment' i'.mentions := by
  have hextract : extract file environment i.mentions = extract file environment' i'.mentions := by
    unfold extract
    cases layerOf file with
    | error e => rfl
    | ok fromFile =>
      refine ofLayers_congr fun field => ?_
      rw [highest?_layers, highest?_layers, h]
  rw [load_eq, load_eq, hextract]

/-- **Loading is the same on every host** if the same settings file is chosen, and any
content of it comes to the same. -/
theorem loadSettings_congr (host : Host m) (hfile : i.configFile = i'.configFile)
    (hload : ∀ content, Settings.load content environment i.mentions
      = Settings.load content environment' i'.mentions) :
    loadSettings host environment i = loadSettings host environment' i' := by
  unfold loadSettings
  rw [hfile]
  simp only [hload]

end

/-! ## A setting that a variable decides -/

/-- **A setting is left to a variable**: the command line is accepted and says nothing
about it, and the variables behind a place in the environment are not for it. -/
structure Setting.LeftTo (field : Setting) (name : String) (before after : List (String × String))
    (words : List String) (i : Invocation) : Prop where
  /-- The command line is accepted. -/
  accepted : Invocation.parse (before ++ after) words = .ok i
  /-- The name is one of the variable for the setting. -/
  spelled : field.Spelled name
  /-- No flag is for the setting. -/
  unflagged : i.flag? field = none
  /-- Nor is a later variable. -/
  last : ∀ entry ∈ after, ∀ j, Settings.variableMention? entry.1 entry.2 ≠ some (field.name, j)

namespace Setting.LeftTo

variable {field : Setting} {name option : String} {before after : List (String × String)}
  {words : List String} {i : Invocation} {value text : String}

/-- **The highest mention** is the variable, as a literal. -/
theorem highest?_self (h : field.LeftTo name before after words i)
    (hoption : field.textOption? i.command = some option) (fromFile : Layer) :
    Settings.highest? i (before ++ (name, value) :: after) fromFile field
      = some (Literal.parse value) := by
  have hliteral : Settings.variableValue field.name value = Literal.parse value := by
    cases field with
    | verifier => cases hoption
    | _ => rfl
  unfold Settings.highest?
  rw [h.unflagged, Settings.mention?_variableLayer_self h.spelled
    (Settings.mention?_variableLayer_eq_none h.last), hliteral]
  rfl

/-- **A variable that stands for a text mentions what a flag with that text does.** -/
theorem highest?_withText (h : field.LeftTo name before after words i)
    (hoption : field.textOption? i.command = some option)
    (htext : Literal.parse value = .string text) (fromFile : Layer) (other : Setting) :
    Settings.highest? i (before ++ (name, value) :: after) fromFile other
      = Settings.highest? (i.withText field text) (before ++ after) fromFile other := by
  by_cases hother : other = field
  · subst hother
    rw [h.highest?_self hoption, htext]
    unfold Settings.highest?
    rw [Invocation.flag?_withText_self hoption]
    rfl
  · unfold Settings.highest?
    rw [Invocation.flag?_withText_of_ne hother,
      Settings.mention?_variableLayer_of_ne h.spelled hother]

/-- **So it makes the same settings, or the same error.** -/
theorem load_withText (h : field.LeftTo name before after words i)
    (hoption : field.textOption? i.command = some option)
    (htext : Literal.parse value = .string text) (file : Option Bytes) :
    Settings.load file (before ++ (name, value) :: after) i.mentions
      = Settings.load file (before ++ after) (i.withText field text).mentions :=
  Settings.load_congr (h.highest?_withText hoption htext) file

end Setting.LeftTo

namespace Setting

variable {field : Setting} {option : String} {command : Command}

/-- **A setting that is a text** is decoded from nothing but a text. -/
theorem exists_of_decode {j : Json} {v : field.Value}
    (hoption : field.textOption? command = some option) (hnull : j ≠ .null)
    (h : field.decode j = .ok v) : ∃ t, j = .string t := by
  cases field with
  | attestationDir | measurementFile | verifierLibrary | pccsUrl =>
    cases j with
    | string t => exact ⟨t, rfl⟩
    | null => exact absurd rfl hnull
    | bool | integer | decimal | array | object => cases h
  | mockSgx | ioTimeoutSecs | maxPayload | verifier | verifierSymbol => cases hoption

/-- **Different texts** are decoded to different values. -/
theorem string_inj_of_decode {s t : String} {v : field.Value}
    (hoption : field.textOption? command = some option) (hs : field.decode (.string s) = .ok v)
    (ht : field.decode (.string t) = .ok v) : s = t := by
  cases field with
  | attestationDir | measurementFile | verifierLibrary | pccsUrl =>
    cases hs
    cases ht
    rfl
  | mockSgx | ioTimeoutSecs | maxPayload | verifier | verifierSymbol => cases hoption

end Setting

/-! ## What cannot be given by a variable as it is -/

/-- **What cannot be extracted** is called undecodable, be it the file or a value. -/
theorem Settings.undecodable_of_extract {file : Option Bytes}
    {environment : List (String × String)} {flags : Layer} {e : SettingsError}
    (h : extract file environment flags = .error e) : ∃ fault, e = .undecodable fault := by
  unfold extract at h
  cases hfile : layerOf file with
  | ok fromFile =>
    rw [hfile] at h
    obtain ⟨field, fault, -, rfl, -⟩ := ofLayers_eq_error h
    exact ⟨.value field fault, rfl⟩
  | error e' =>
    rw [hfile] at h
    cases h
    cases file with
    | none => cases hfile
    | some content =>
      unfold layerOf fileLayer at hfile
      dsimp only at hfile
      split at hfile
      case h_1 =>
        cases hfile
        exact ⟨_, rfl⟩
      case h_2 =>
        split at hfile
        case h_1 =>
          split at hfile
          case h_1 => cases hfile
          case h_2 =>
            cases hfile
            exact ⟨_, rfl⟩
        case h_2 =>
          cases hfile
          exact ⟨_, rfl⟩

namespace Setting.LeftTo

variable {field : Setting} {name option : String} {before after : List (String × String)}
  {words : List String} {i : Invocation} {value text : String} {file : Option Bytes}
  {s : Settings}

/-- **What is extracted has the value that the variable is decoded to.** -/
theorem decode_of_extract (h : field.LeftTo name before after words i)
    (hoption : field.textOption? i.command = some option)
    (hextract : Settings.extract file (before ++ (name, value) :: after) i.mentions = .ok s) :
    field.decode (Literal.parse value) = .ok (s.get field) := by
  obtain ⟨fromFile, hfile, -⟩ := ok_of_except_bind hextract
  have hfield := (Settings.extract_eq_ok_iff hfile i).mp hextract field
  rwa [h.highest?_self hoption] at hfield

/-- **A variable that stands for no text is refused**, as what cannot be decoded is. -/
theorem load_of_not_text (h : field.LeftTo name before after words i)
    (hoption : field.textOption? i.command = some option)
    (hvalue : ∀ t, Literal.parse value ≠ .string t) (file : Option Bytes) :
    ∃ fault, Settings.load file (before ++ (name, value) :: after) i.mentions
      = .error (.undecodable fault) := by
  rw [Settings.load_eq]
  cases hextract : Settings.extract file (before ++ (name, value) :: after) i.mentions with
  | error e =>
    obtain ⟨fault, rfl⟩ := Settings.undecodable_of_extract hextract
    exact ⟨fault, rfl⟩
  | ok s =>
    obtain ⟨t, ht⟩ := Setting.exists_of_decode hoption (Literal.parse_ne_null value)
      (h.decode_of_extract hoption hextract)
    exact absurd ht (hvalue t)

/-- **The settings that a flag makes are made by a variable** with the same text exactly
if that stands for itself. -/
theorem load_eq_ok_iff (h : field.LeftTo name before after words i)
    (hoption : field.textOption? i.command = some option)
    (hflag : Settings.load file (before ++ after) (i.withText field text).mentions = .ok s) :
    Settings.load file (before ++ (name, text) :: after) i.mentions = .ok s
      ↔ Literal.parse text = .string text := by
  refine ⟨fun hload => ?_, fun hself => (h.load_withText hoption hself file).trans hflag⟩
  have hdecode := h.decode_of_extract hoption (Settings.load_eq_ok_iff.mp hload).1
  obtain ⟨t, ht⟩ := Setting.exists_of_decode hoption (Literal.parse_ne_null text) hdecode
  rw [ht] at hdecode ⊢
  -- the text in quotes makes what the flag makes, and stands for the text
  have hquoted := (h.load_withText hoption (Literal.parse_quoted text) file).trans hflag
  have hdecode' := h.decode_of_extract hoption (Settings.load_eq_ok_iff.mp hquoted).1
  rw [Literal.parse_quoted] at hdecode'
  rw [Setting.string_inj_of_decode hoption hdecode hdecode']

end Setting.LeftTo

/-! ## Variables and flags -/

/-- **A variable and a flag agree on every text that does not look like a literal.**

A setting that is a text is left to a variable: the command line is accepted and has no
flag for it, and no later variable is for it. Then the command line stays accepted with
the variable, whatever its value, and there is a place in it for one more word, the flag
with a text that is not empty, with which it asks for the same and gives the setting this
text. Let the text have no white space around it. If it does not look like a literal,
loading comes to the same with the variable as with the flag, on every host: to the same
settings or to the same error.

Any other text can be given by the variable in quotes. In general a variable that stands
for a text is a flag with that text, and one that stands for no text is refused. So the
settings that the flag makes are made by the variable exactly if the text stands for
itself. -/
theorem loadSettings_variable_or_flag {field : Setting} {name option text : String}
    {before after : List (String × String)} {words : List String} {i : Invocation}
    (h : field.LeftTo name before after words i)
    (hoption : field.textOption? i.command = some option)
    (hnonempty : text ≠ "") (htrim : Text.trim text.toList = text.toList) :
    (∀ value, Invocation.parse (before ++ (name, value) :: after) words = .ok i)
      ∧ (∃ front back, words = front ++ back
        ∧ Invocation.parse (before ++ after) (front ++ attachedWord option text :: back)
          = .ok (i.withText field text))
      ∧ (Literal.looksLiteral text = false →
        ∀ {m : Type → Type} [Monad m] (host : Host m),
          loadSettings host (before ++ (name, text) :: after) i
            = loadSettings host (before ++ after) (i.withText field text))
      ∧ (∀ {m : Type → Type} [Monad m] (host : Host m),
        loadSettings host (before ++ (name, Literal.quoted text) :: after) i
          = loadSettings host (before ++ after) (i.withText field text))
      ∧ (∀ value t, Literal.parse value = .string t →
        ∀ {m : Type → Type} [Monad m] (host : Host m),
          loadSettings host (before ++ (name, value) :: after) i
            = loadSettings host (before ++ after) (i.withText field t))
      ∧ (∀ value, (∀ t, Literal.parse value ≠ .string t) → ∀ file, ∃ fault,
        Settings.load file (before ++ (name, value) :: after) i.mentions
          = .error (.undecodable fault))
      ∧ ∀ file s, Settings.load file (before ++ after) (i.withText field text).mentions = .ok s →
        (Settings.load file (before ++ (name, text) :: after) i.mentions = .ok s
          ↔ Literal.parse text = .string text) := by
  have hload (value t : String) (ht : Literal.parse value = .string t) {m : Type → Type}
      [Monad m] (host : Host m) : loadSettings host (before ++ (name, value) :: after) i
        = loadSettings host (before ++ after) (i.withText field t) :=
    loadSettings_congr host (i.configFile_withText field t).symm (h.load_withText hoption ht)
  refine ⟨fun value => ?_, ?_, fun hplain => hload text text ?_, ?_, hload,
    fun value hvalue file => h.load_of_not_text hoption hvalue file,
    fun file s hflag => h.load_eq_ok_iff hoption hflag⟩
  · exact (Invocation.parse_congr (Settings.lookup_configVariable h.spelled)).trans h.accepted
  · exact Invocation.exists_parse_withText h.accepted hoption h.unflagged hnonempty
  · exact Literal.parse_of_not_looksLiteral htrim hplain
  · exact hload (Literal.quoted text) text (Literal.parse_quoted text)

/-- The service of a verification, by a variable in lower case among others. -/
theorem loadSettings_variable_or_flag_service :
    let words := ["verify", "--user-data", "claims", "--quote", "quote.bin"]
    let url := "https://pccs.example:8081/v4/"
    ∃ i, Invocation.parse [("PATH", "/bin")] words = .ok i
      ∧ loadSettings Machine.host [("PATH", "/bin"), ("certifier_pccs_url", url)] i
        = loadSettings Machine.host [("PATH", "/bin")] (i.withText .pccsUrl url) := by
  intro words url
  let i : Invocation := ⟨.info, false, none, none, none, none,
    .verify ⟨"claims", "quote.bin", none, none, none⟩⟩
  have hleft : Setting.LeftTo .pccsUrl "certifier_pccs_url" [("PATH", "/bin")] [] words i :=
    ⟨rfl, rfl, rfl, nofun⟩
  have hoption : Setting.textOption? i.command .pccsUrl = some "pccs-url" := rfl
  have hagree := loadSettings_variable_or_flag hleft hoption (show url ≠ "" by decide) (by decide)
  exact ⟨i, hleft.accepted, hagree.2.2.1 (by decide) Machine.host⟩

/-- **A number** can be given by the flag, and is refused from the variable. -/
theorem number_by_variable_refused :
    (∃ i, Invocation.parse [("CERTIFIER_ATTESTATION_DIR", "10")] ["--mock-sgx", "measurement"]
          = .ok i
        ∧ Settings.load none [("CERTIFIER_ATTESTATION_DIR", "10")] i.mentions
          = .error (.undecodable
            (.value .attestationDir (.wrongType (.integer 10) "path string"))))
      ∧ ∃ i, Invocation.parse [] ["--mock-sgx", "--attestation-dir=10", "measurement"] = .ok i
        ∧ Settings.load none [] i.mentions
          = .ok { mockSgx := true, attestationDir := "10" } :=
  ⟨⟨⟨.info, true, none, none, none, none, .measurement⟩, rfl, rfl⟩,
    ⟨.info, true, none, some "10", none, none, .measurement⟩, rfl, rfl⟩

end Enclave
