import Enclave.Proofs.Command.Flags
import Enclave.Proofs.Command.Loading
import Enclave.Proofs.Settings.Variables

/-!
# Defaults, file, environment, flags

The settings of a run come from four places, and for each setting the highest of them
that mentions it decides. What the words of a command line mention is told by
`Setting.FlaggedBy`, what the variables mention by `Settings.mention?_variableLayer`,
and which file is read by the words and one variable (`Invocation.GivenBy`). Laid over
each other, they make the settings that are extracted (`Settings.extract_eq_ok_iff`).
-/

namespace Enclave

/-- **What the words of a command line mention for a setting**: some stand in front of
the command, and some behind it. -/
def Setting.FlaggedBy (before : List String) (command : String) (rest : List String) (j : Json) :
    Setting → Prop
  | .mockSgx => optionWord "mock-sgx" ∈ before ∧ j = .bool true
  | .attestationDir => ∃ path, Gives before "attestation-dir" path ∧ j = .string path
  | .measurementFile => ∃ path, Gives before "measurement-file" path ∧ j = .string path
  | .ioTimeoutSecs => ∃ n : Nat, (∃ text, Gives before "io-timeout-secs" text
      ∧ Invocation.number? text = some n) ∧ j = .integer n
  | .maxPayload => (command = "seal" ∨ command = "unseal") ∧ ∃ n : Nat,
      (∃ text, Gives rest "max-payload" text ∧ Invocation.number? text = some n) ∧ j = .integer n
  | .verifier => command = "verify" ∧ ∃ kind, (∃ text, Gives rest "verifier" text
      ∧ VerifierKind.ofName? text = some kind) ∧ j = .string kind.name
  | .verifierLibrary => command = "verify" ∧ ∃ path, Gives rest "verifier-library" path
      ∧ j = .string path
  | .verifierSymbol => False
  | .pccsUrl => command = "verify" ∧ ∃ url, Gives rest "pccs-url" url ∧ j = .string url

namespace Invocation

variable {environment : List (String × String)} {i : Invocation} {before rest : List String}

/-- **A command line says about a setting what its words mention.** -/
theorem GivenBy.flag?_eq_some_iff (h : i.GivenBy environment before rest) (field : Setting)
    (j : Json) : i.flag? field = some j ↔ field.FlaggedBy before i.command.word rest j := by
  have hmap {α : Type} {P : α → Prop} {value : Option α} (f : α → Json)
      (hvalue : ∀ a, value = some a ↔ P a) : value.map f = some j ↔ ∃ a, P a ∧ j = f a := by
    rw [Option.map_eq_some_iff]
    exact exists_congr fun a => and_congr (hvalue a) eq_comm
  have hcommand := h.command
  cases field with
  | mockSgx =>
    show (if i.mockSgx = true then some (Json.bool true) else none) = some j ↔ _ ∧ _
    rw [← h.mockSgx]
    by_cases hmock : i.mockSgx = true
    · rw [if_pos hmock, Option.some.injEq]
      exact ⟨fun h => ⟨hmock, h.symm⟩, fun h => h.2.symm⟩
    · rw [if_neg hmock]
      exact iff_of_false nofun fun h => hmock h.1
  | attestationDir => exact hmap _ h.attestationDir
  | measurementFile => exact hmap _ h.measurementFile
  | ioTimeoutSecs =>
    unfold flag? Setting.FlaggedBy
    exact hmap (fun n : Nat => .integer n) h.ioTimeoutSecs
  | verifierSymbol => exact iff_of_false nofun id
  | maxPayload =>
    unfold flag? Setting.FlaggedBy
    cases hc : i.command with
    | sealing job =>
      rw [hc] at hcommand
      exact (hmap (fun n : Nat => .integer n) hcommand).trans (and_iff_right (Or.inl rfl)).symm
    | unsealing job =>
      rw [hc] at hcommand
      exact (hmap (fun n : Nat => .integer n) hcommand).trans (and_iff_right (Or.inr rfl)).symm
    | attest | verify | measurement =>
      exact iff_of_false nofun fun h => absurd h.1 (by dsimp only [Command.word]; decide)
  | verifier =>
    unfold flag? Setting.FlaggedBy
    cases hc : i.command with
    | verify job =>
      rw [hc] at hcommand
      exact (hmap (fun kind : VerifierKind => .string kind.name) hcommand.1).trans
        (and_iff_right rfl).symm
    | attest | sealing | unsealing | measurement =>
      exact iff_of_false nofun fun h => absurd h.1 (by dsimp only [Command.word]; decide)
  | verifierLibrary =>
    unfold flag? Setting.FlaggedBy
    cases hc : i.command with
    | verify job =>
      rw [hc] at hcommand
      exact (hmap .string hcommand.2.1).trans (and_iff_right rfl).symm
    | attest | sealing | unsealing | measurement =>
      exact iff_of_false nofun fun h => absurd h.1 (by dsimp only [Command.word]; decide)
  | pccsUrl =>
    unfold flag? Setting.FlaggedBy
    cases hc : i.command with
    | verify job =>
      rw [hc] at hcommand
      exact (hmap .string hcommand.2.2).trans (and_iff_right rfl).symm
    | attest | sealing | unsealing | measurement =>
      exact iff_of_false nofun fun h => absurd h.1 (by dsimp only [Command.word]; decide)

end Invocation

namespace Settings

variable {s : Settings} {file : Option Bytes} {environment : List (String × String)}
  {fromFile : Layer}

/-- **What the highest place says about a setting**: the command line, or else the
environment, or else the file. -/
def highest? (i : Invocation) (environment : List (String × String)) (fromFile : Layer)
    (field : Setting) : Option Json :=
  (i.flag? field).or
    (((variableLayer environment).mention? field.name).or (fromFile.mention? field.name))

/-- The layers of a run mention what its places say. -/
theorem highest?_layers (i : Invocation) (environment : List (String × String))
    (fromFile : Layer) (field : Setting) :
    Layer.highest? [fromFile, variableLayer environment, i.mentions] field.name
      = highest? i environment fromFile field := by
  unfold Layer.highest? highest?
  rw [List.reverse_cons, List.reverse_cons, List.reverse_cons, List.reverse_nil]
  show [i.mentions, variableLayer environment, fromFile].findSome? _ = _
  rw [List.findSome?_cons, List.findSome?_cons, List.findSome?_cons, i.mention?_mentions]
  cases i.flag? field with
  | some j => rfl
  | none =>
    cases (variableLayer environment).mention? field.name with
    | some j => rfl
    | none => cases fromFile.mention? field.name <;> rfl

theorem layered_eq (i : Invocation) (environment : List (String × String)) (fromFile : Layer)
    (field : Setting) : layered [fromFile, variableLayer environment, i.mentions] field
      = field.take (highest? i environment fromFile field) (({} : Settings).get field) := by
  unfold layered
  rw [highest?_layers]

/-- **What is extracted**: of each setting, what the highest place says about it, and
the default if none does. -/
theorem extract_eq_ok_iff (hfile : layerOf file = .ok fromFile) (i : Invocation) :
    extract file environment i.mentions = .ok s
      ↔ ∀ field : Setting, field.take (highest? i environment fromFile field)
        (({} : Settings).get field) = .ok (s.get field) := by
  unfold extract
  rw [hfile]
  refine ofLayers_eq_ok_iff.trans (forall_congr' fun field => ?_)
  rw [layered_eq]

/-- **What cannot be extracted** is what the highest place says about some setting: the
first, in the order of the names, for which that cannot be decoded. -/
theorem extract_eq_error {e : SettingsError} (hfile : layerOf file = .ok fromFile)
    {i : Invocation} (h : extract file environment i.mentions = .error e) :
    ∃ field j fault, highest? i environment fromFile field = some j
      ∧ field.decode j = .error fault ∧ e = .undecodable (.value field fault)
      ∧ ∀ other : Setting, other.name < field.name →
        ∀ j', highest? i environment fromFile other = some j' → ∃ v, other.decode j' = .ok v := by
  unfold extract at h
  rw [hfile] at h
  obtain ⟨field, fault, hlayered, he, hbefore⟩ := ofLayers_eq_error h
  rw [layered_eq] at hlayered
  cases hhighest : highest? i environment fromFile field with
  | none =>
    rw [hhighest] at hlayered
    cases hlayered
  | some j =>
    rw [hhighest] at hlayered
    refine ⟨field, j, fault, hhighest, hlayered, he, fun other hother j' hj' => ?_⟩
    obtain ⟨v, hv⟩ := hbefore other hother
    rw [layered_eq, hj'] at hv
    exact ⟨v, hv⟩

/-- **The highest mention of a setting decides.**

The words of an accepted command line stand in front of its command and behind it. In
front of it, they can mention mock mode, the directory, the file with the measurement
and the limit for a transfer, and behind it a verification can mention the verifier,
its library and its service, and sealing and unsealing the limit for payloads; nothing
else on a command line mentions a setting. They also choose the settings file, before
the variable for that, which is for no setting. For each setting, the environment
mentions what the one variable says that is for it, in any case.

Each setting that is extracted is then decoded from what the highest of command line,
environment and file says about it, and has its default if none does. If one of these
values cannot be decoded, nothing is extracted, and the error is that of the first such
value, in the order of the names of the settings: what is covered by a higher place
causes none. What has no name of a setting does not matter, for the settings and for
the error. The settings of a run are those that are extracted, if they make sense, from
the file that is chosen or found. -/
theorem highest_mention_decides :
    (∀ (environment : List (String × String)) (words : List String) (i : Invocation),
        Invocation.parse environment words = .ok i →
        ∃ before rest, words = before ++ i.command.word :: rest
          ∧ (∀ field j, i.flag? field = some j
            ↔ field.FlaggedBy before i.command.word rest j)
          ∧ ∀ path, i.configFile = some path ↔ Gives before "config" path
            ∨ (∀ other, ¬ Gives before "config" other)
              ∧ environment.lookup "CERTIFIER_CONFIG" = some path)
      ∧ (∀ (environment : List (String × String)) (field : Setting),
        (∀ name value, field.Spelled name → (name, value) ∈ environment →
          (∀ entry ∈ environment, ∀ j,
            variableMention? entry.1 entry.2 = some (field.name, j) → entry = (name, value)) →
          (variableLayer environment).mention? field.name = some (variableValue field.name value))
        ∧ ((∀ entry ∈ environment, ∀ j, variableMention? entry.1 entry.2 ≠ some (field.name, j)) →
          (variableLayer environment).mention? field.name = none))
      ∧ (∀ name value : String, name.toList.map Char.toUpper = "CERTIFIER_CONFIG".toList →
        variableMention? name value = none)
      ∧ (∀ (file : Option Bytes) (fromFile : Layer) (environment : List (String × String))
        (i : Invocation), layerOf file = .ok fromFile →
        (∀ s : Settings, extract file environment i.mentions = .ok s
          ↔ ∀ field : Setting, (match highest? i environment fromFile field with
            | some j => field.decode j = .ok (s.get field)
            | none => s.get field = ({} : Settings).get field))
        ∧ (∀ field j fault, highest? i environment fromFile field = some j →
          field.decode j = .error fault → ∃ e, extract file environment i.mentions = .error e)
        ∧ ∀ e, extract file environment i.mentions = .error e →
          ∃ field j fault, highest? i environment fromFile field = some j
            ∧ field.decode j = .error fault
            ∧ e = .undecodable (.value field fault)
            ∧ (∀ wording, e.message wording = "Config error: " ++ wording (.value field fault))
            ∧ ∀ other : Setting, other.name < field.name →
              ∀ j', highest? i environment fromFile other = some j' →
                ∃ v, other.decode j' = .ok v)
      ∧ (∀ (layers layers' : List Layer), (∀ field : Setting,
          Layer.highest? layers field.name = Layer.highest? layers' field.name) →
        ofLayers layers = ofLayers layers')
      ∧ ∀ (environment : List (String × String)) (i : Invocation) (w : Machine),
        resultOf (loadSettings Machine.host environment i) w = (do
          let content ← fileIn w.files i.configFile
          match extract content environment i.mentions with
          | .error e => .error e
          | .ok s =>
            match s.validate with
            | .ok _ => .ok s
            | .error e => .error (.refused e)) := by
  refine ⟨fun environment words i h => ?_, fun environment field =>
    ⟨fun name value => mention?_variableLayer, mention?_variableLayer_eq_none⟩,
    fun name value h => variableMention?_of_config h value,
    fun file fromFile environment i hfile => ⟨fun s => ?_, fun field j fault hj hfault => ?_,
      fun e he => ?_⟩, fun layers layers' h => ofLayers_congr h, fun environment i w => ?_⟩
  · obtain ⟨before, rest, hsplit, hgiven⟩ := Invocation.exists_givenBy h
    exact ⟨before, rest, hsplit, hgiven.flag?_eq_some_iff, hgiven.configFile⟩
  · refine (extract_eq_ok_iff hfile i).trans (forall_congr' fun field => ?_)
    cases highest? i environment fromFile field with
    | some j => exact Iff.rfl
    | none =>
      show Except.ok _ = Except.ok _ ↔ _
      rw [Except.ok.injEq]
      exact eq_comm
  · cases hextract : extract file environment i.mentions with
    | error e => exact ⟨e, rfl⟩
    | ok s =>
      have hfield := (extract_eq_ok_iff hfile i).mp hextract field
      rw [hj] at hfield
      cases hfault.symm.trans hfield
  · obtain ⟨field, j, fault, hj, hfault, rfl, hbefore⟩ := extract_eq_error hfile he
    exact ⟨field, j, fault, hj, hfault, rfl, fun wording => rfl, hbefore⟩
  · rw [resultOf_loadSettings_host]
    cases fileIn w.files i.configFile with
    | error e => rfl
    | ok content => exact load_eq content environment i.mentions

/-- Members with nothing but texts are known from the texts. -/
theorem members_of_texts (texts : List (String × String)) {members : Layer}
    (h : members.map (fun member => (member.1, member.2.string?))
      = texts.map fun text => (text.1, some text.2)) :
    members = texts.map fun text => (text.1, .string text.2) := by
  induction texts generalizing members with
  | nil => exact List.map_eq_nil_iff.mp h
  | cons text texts ih =>
    cases members with
    | nil => cases h
    | cons member members =>
      obtain ⟨hmember, hrest⟩ := List.cons.inj h
      obtain ⟨name, j⟩ := member
      obtain ⟨rfl, hj⟩ := Prod.mk.inj hmember
      cases j with
      | string s =>
        cases hj
        rw [List.map_cons, ← ih hrest]
      | _ => cases hj

/-- **A settings file with nothing but texts** is known from the texts. -/
theorem layerOf_of_texts (texts : List (String × String))
    (h : (layerOf file).toOption.map (List.map fun member => (member.1, member.2.string?))
      = some (texts.map fun text => (text.1, some text.2))) :
    layerOf file = .ok (texts.map fun text => (text.1, .string text.2)) := by
  cases hlayer : layerOf file with
  | error e =>
    rw [hlayer] at h
    cases h
  | ok members =>
    rw [hlayer] at h
    rw [members_of_texts texts (Option.some.inj h)]

/-- A word covers a variable that says nothing of use, another variable in lower case
covers what the settings file gives for a limit, which is none, and what only the file
mentions is as it says. What is left has its default. -/
theorem highest_mention_decides_covered :
    let content := "max_payload='x'\nmeasurement_file='m'".toUTF8.toList
    let environment := [("Certifier_Mock_SGX", "perhaps"), ("certifier_max_payload", "64")]
    let w : Machine := { files := FileSystem.initial.put ["work", "c"] (.file content) }
    ∃ i, Invocation.parse environment ["--mock-sgx", "--config", "c", "measurement"] = .ok i
      ∧ resultOf (loadSettings Machine.host environment i) w
        = .ok { mockSgx := true, maxPayload := 64, measurementFile := some "m" } := by
  intro content environment w
  have hlayer : layerOf (some content) = .ok _ :=
    layerOf_of_texts [("max_payload", "x"), ("measurement_file", "m")] (by decide +kernel)
  obtain ⟨-, -, -, hextract, -, hload⟩ := highest_mention_decides
  refine ⟨⟨.info, true, some "c", none, none, none, .measurement⟩, rfl, ?_⟩
  have hvariables : variableLayer environment
      = [("mock_sgx", .string "perhaps"), ("max_payload", .integer 64)] := rfl
  have hplain : FileSystem.Plain "c" := by decide
  have hfound : fileIn w.files (some "c") = .ok (some content) :=
    fileIn_of_holds (hplain.holds rfl)
  have hsettings : extract (some content) environment
      (Invocation.mentions ⟨.info, true, some "c", none, none, none, .measurement⟩)
      = .ok { mockSgx := true, maxPayload := 64, measurementFile := some "m" } := by
    refine ((hextract _ _ environment _ hlayer).1 _).mpr fun field => ?_
    unfold highest?
    rw [hvariables]
    cases field <;> rfl
  rw [hload, hfound]
  dsimp only [bind, Except.bind]
  rw [hsettings]
  rfl

end Settings

end Enclave
