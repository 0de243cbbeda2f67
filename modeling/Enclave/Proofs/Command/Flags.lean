import Enclave.Proofs.Command.Words
import Enclave.Proofs.Settings.Layering

/-!
# Flags as a layer

What an accepted command line asks for is what its words give (`Invocation.GivenBy`):
the options in front of the command are read from the words in front of it, those of
the command from the words behind it, and an option that the words do not give has no
value. The settings file is chosen by an option, or else by a variable.

For each setting there is one place where a command line can say something about it
(`Invocation.flag?`): four in front of any command, the verifier, its library and its
service in a verification, and the limit in sealing and unsealing. This is what the
layer of the command line mentions (`Invocation.mention?_mentions`).
-/

namespace Enclave

/-- A step that succeeds, and what follows it. -/
theorem ok_of_except_bind {ε α β : Type} {x : Except ε α} {f : α → Except ε β} {b : β}
    (h : x >>= f = .ok b) : ∃ a, x = .ok a ∧ f a = .ok b := by
  cases x with
  | error e => cases h
  | ok a => exact ⟨a, rfl, h⟩

/-- The word for a command. -/
def Command.word : Command → String
  | attest .. => "attest"
  | verify _ => "verify"
  | sealing _ => "seal"
  | unsealing _ => "unseal"
  | measurement => "measurement"

namespace Invocation

variable {environment : List (String × String)} {words : List String} {i : Invocation}

/-! ## From a reading to an invocation -/

/-- The settings file that is chosen by an option, or else by a variable. -/
def chosen (environment : List (String × String)) (r : Reading) :
    Except UsageError (Option String) :=
  match r.value? "config", environment.lookup configVariable with
  | some path, _ => .ok (some path)
  | none, some path => (checkPath path).map fun _ => some path
  | none, none => .ok none

/-- The invocation that a reading comes to. -/
def ofReading (r : Reading) (configFile : Option String) (command : Command) : Invocation where
  level := .ofCount (r.count "verbose")
  mockSgx := r.count "mock-sgx" ≠ 0
  configFile
  attestationDir := r.value? "attestation-dir"
  measurementFile := r.value? "measurement-file"
  ioTimeoutSecs := (r.value? "io-timeout-secs").bind number?
  command

/-- How a command line ends, with a command or without one. -/
def finish (r : Reading) (configFile : Option String) :
    Option Command → Except UsageError Invocation
  | none => .error (if r.given = [] && configFile = none then .nothingGiven else .missingCommand)
  | some command => .ok (ofReading r configFile command)

/-- **How a command line is accepted**: the words in front of the command are read and
settled, then the command and its words, and then the settings file is chosen. -/
theorem parse_eq_ok (h : parse environment words = .ok i) :
    ∃ r name rest settled, Reading.words commonOptions (commandNames ++ [helpCommand]) {} words
        = .ok (r, some (name, rest))
      ∧ r.settle = .ok settled ∧ readCommand name rest = .ok i.command
      ∧ chosen environment settled = .ok i.configFile
      ∧ i = ofReading settled i.configFile i.command := by
  unfold parse at h
  obtain ⟨⟨r, found⟩, hwords, h⟩ := ok_of_except_bind h
  -- what is done with any command that was found
  have hrest (command : Option Command) (h : (do
      let r ← r.settle
      let chosen ← match r.value? "config", environment.lookup configVariable with
        | some path, _ => pure (some path)
        | none, some path => (checkPath path).map fun _ => some path
        | none, none => pure none
      finish r chosen command) = Except.ok i) :
      ∃ settled, r.settle = .ok settled ∧ chosen environment settled = .ok i.configFile
        ∧ command = some i.command ∧ i = ofReading settled i.configFile i.command := by
    obtain ⟨settled, hsettled, h⟩ := ok_of_except_bind h
    refine ⟨settled, hsettled, ?_⟩
    have hchosen : ∃ file, chosen environment settled = .ok file
        ∧ finish settled file command = .ok i := by
      unfold chosen
      dsimp only at h
      cases hvalue : settled.value? "config" with
      | some path =>
        rw [hvalue] at h
        exact ⟨some path, rfl, h⟩
      | none =>
        rw [hvalue] at h
        cases hvariable : environment.lookup configVariable with
        | some path =>
          rw [hvariable] at h
          exact ok_of_except_bind h
        | none =>
          rw [hvariable] at h
          exact ⟨none, rfl, h⟩
    obtain ⟨file, hfile, h⟩ := hchosen
    cases command with
    | none => cases h
    | some command =>
      cases h
      exact ⟨hfile, rfl, rfl⟩
  cases found with
  | none =>
    obtain ⟨settled, -, -, hnone, -⟩ := hrest none h
    cases hnone
  | some found =>
    obtain ⟨name, rest⟩ := found
    dsimp only at h
    split at h
    case isTrue => cases h
    case isFalse =>
      obtain ⟨command, hcommand, h⟩ := ok_of_except_bind h
      obtain ⟨settled, hsettle, hchosen, rfl, hi⟩ := hrest command h
      refine ⟨r, name, rest, settled, hwords, hsettle, ?_, hchosen, hi⟩
      cases hread : readCommand name rest with
      | error e =>
        rw [hread] at hcommand
        cases hcommand
      | ok command =>
        rw [hread] at hcommand
        cases hcommand
        rfl

/-- A command is read under its word. -/
theorem word_of_readCommand {name : String} {rest : List String} {command : Command}
    (h : readCommand name rest = .ok command) : name = command.word := by
  unfold readCommand at h
  split at h
  · obtain ⟨r, -, h⟩ := ok_of_except_bind h
    cases h
    rfl
  · obtain ⟨r, -, h⟩ := ok_of_except_bind h
    cases h
    rfl
  · obtain ⟨r, -, h⟩ := ok_of_except_bind h
    cases h
    rfl
  · obtain ⟨r, -, h⟩ := ok_of_except_bind h
    cases h
    rfl
  · obtain ⟨r, -, h⟩ := ok_of_except_bind h
    cases h
    rfl
  · cases h

/-! ## From words to values -/

/-- **The options of a command** have the values that its words tell. -/
theorem value?_readOptions {options : List CommandOption} {o : CommandOption} {r : Reading}
    (ho : o.Distinct options) (hcount : o.use ≠ .count) (h : readOptions options words = .ok r)
    (value : String) : r.value? o.name = some value ↔ Reading.Told o words value := by
  unfold readOptions at h
  obtain ⟨⟨read, found⟩, hwords, hread⟩ := ok_of_except_bind h
  obtain ⟨settled, hsettle, hsettled⟩ := ok_of_except_bind hread
  obtain ⟨consumed, hconsumed, hvalue⟩ := Reading.value?_iff_told ho hcount hwords hsettle
  cases found with
  | some found => cases hconsumed.2
  | none =>
    subst hconsumed
    dsimp only at hsettled
    split at hsettled
    case isTrue => cases hsettled
    case isFalse =>
      cases hsettled
      exact hvalue value

/-- **The options in front of a command** have the values that the words there tell. -/
theorem value?_common {o : CommandOption} {r settled : Reading} {name : String}
    {before rest : List String} (ho : o.Distinct commonOptions) (hcount : o.use ≠ .count)
    (h : Reading.words commonOptions (commandNames ++ [helpCommand]) {} (before ++ name :: rest)
      = .ok (r, some (name, rest)))
    (hsettle : r.settle = .ok settled) (value : String) :
    settled.value? o.name = some value ↔ Reading.Told o before value := by
  obtain ⟨consumed, hconsumed, hvalue⟩ := Reading.value?_iff_told ho hcount h hsettle
  rw [List.append_cancel_right hconsumed.1]
  exact hvalue value

/-- An option without a value is given exactly if it is there. -/
theorem count_ne_zero_iff {r : Reading} {name : String} :
    r.count name ≠ 0 ↔ ∃ value, r.value? name = some value := by
  unfold Reading.count Reading.value?
  rw [Ne, List.length_eq_zero_iff, List.filter_eq_nil_iff]
  cases hvalue : r.given.lookup name with
  | none =>
    rw [List.lookup_eq_none_iff] at hvalue
    refine iff_of_false (not_not_intro fun entry hentry heq => ?_) fun h =>
      absurd h.choose_spec nofun
    exact bne_iff_ne.mp (hvalue entry hentry) (of_decide_eq_true heq).symm
  | some value =>
    obtain ⟨before, after, hsplit, -⟩ := List.lookup_eq_some_iff.mp hvalue
    refine iff_of_true (fun hnot => ?_) ⟨value, rfl⟩
    refine hnot (name, value) ?_ (decide_eq_true rfl)
    rw [hsplit]
    exact List.mem_append_right _ List.mem_cons_self

end Invocation

/-- **The settings of a command are given by the words** behind its own. -/
def Command.GivenBy (rest : List String) : Command → Prop
  | .verify job =>
    (∀ kind, job.verifier = some kind
        ↔ ∃ text, Gives rest "verifier" text ∧ VerifierKind.ofName? text = some kind)
      ∧ (∀ path, job.library = some path ↔ Gives rest "verifier-library" path)
      ∧ ∀ url, job.serviceUrl = some url ↔ Gives rest "pccs-url" url
  | .sealing job | .unsealing job => ∀ n, job.maxPayload = some n
      ↔ ∃ text, Gives rest "max-payload" text ∧ Invocation.number? text = some n
  | .attest .. | .measurement => True

namespace Invocation

/-- **An invocation is given by words**: some in front of the command, and some behind
it. -/
structure GivenBy (environment : List (String × String)) (i : Invocation)
    (before rest : List String) : Prop where
  /-- Mock mode is switched on by its word. -/
  mockSgx : i.mockSgx = true ↔ optionWord "mock-sgx" ∈ before
  /-- The settings file is chosen by words, or else by a variable. -/
  configFile : ∀ path, i.configFile = some path ↔ Gives before "config" path
    ∨ (∀ other, ¬ Gives before "config" other) ∧ environment.lookup configVariable = some path
  /-- The directory is given by words. -/
  attestationDir : ∀ path, i.attestationDir = some path ↔ Gives before "attestation-dir" path
  /-- The file with the measurement is given by words. -/
  measurementFile : ∀ path, i.measurementFile = some path ↔ Gives before "measurement-file" path
  /-- The limit for a transfer is given by words. -/
  ioTimeoutSecs : ∀ n, i.ioTimeoutSecs = some n
    ↔ ∃ text, Gives before "io-timeout-secs" text ∧ number? text = some n
  /-- So are the settings of the command. -/
  command : i.command.GivenBy rest

/-- The settings of a command are given by the words that it is read from. -/
theorem givenBy_of_readCommand {name : String} {rest : List String} {command : Command}
    (h : readCommand name rest = .ok command) : command.GivenBy rest := by
  have hlimit {r : Reading} (hr : readOptions sealingOptions rest = .ok r) (n : Nat) :
      (sealingJob r).maxPayload = some n
        ↔ ∃ text, Gives rest "max-payload" text ∧ number? text = some n := by
    have hvalue := value?_readOptions (o := { name := "max-payload", use := .value checkNumber })
      ⟨by decide, rfl, by decide, by decide⟩ nofun hr
    show (r.value? "max-payload").bind number? = some n ↔ _
    rw [Option.bind_eq_some_iff]
    exact exists_congr fun text =>
      and_congr_left' ((hvalue text).trans (Reading.told_value_iff rfl))
  unfold readCommand at h
  split at h
  · obtain ⟨r, -, h⟩ := ok_of_except_bind h
    cases h
    trivial
  · obtain ⟨r, hr, h⟩ := ok_of_except_bind h
    cases h
    have hverifier := value?_readOptions (o := { name := "verifier", use := .value checkVerifier })
      ⟨by decide, rfl, by decide, by decide⟩ nofun hr
    have hlibrary := value?_readOptions
      (o := { name := "verifier-library", use := .value checkPath })
      ⟨by decide, rfl, by decide, by decide⟩ nofun hr
    have hurl := value?_readOptions (o := { name := "pccs-url", use := .value fun _ => .ok () })
      ⟨by decide, rfl, by decide, by decide⟩ nofun hr
    refine ⟨fun kind => ?_, fun path => (hlibrary path).trans (Reading.told_value_iff rfl),
      fun url => (hurl url).trans (Reading.told_value_iff rfl)⟩
    show (r.value? "verifier").bind VerifierKind.ofName? = some kind ↔ _
    rw [Option.bind_eq_some_iff]
    exact exists_congr fun text =>
      and_congr_left' ((hverifier text).trans (Reading.told_value_iff rfl))
  · obtain ⟨r, hr, h⟩ := ok_of_except_bind h
    cases h
    exact hlimit hr
  · obtain ⟨r, hr, h⟩ := ok_of_except_bind h
    cases h
    exact hlimit hr
  · obtain ⟨r, -, h⟩ := ok_of_except_bind h
    cases h
    trivial
  · cases h

/-- **What an accepted command line asks for is what its words give.** -/
theorem exists_givenBy (h : parse environment words = .ok i) :
    ∃ before rest, words = before ++ i.command.word :: rest
      ∧ i.GivenBy environment before rest := by
  obtain ⟨r, name, rest, settled, hwords, hsettle, hcommand, hchosen, hi⟩ := parse_eq_ok h
  obtain ⟨before, hsplit, -⟩ := Reading.value?_iff_told
    (o := { name := "mock-sgx", use := .toggle }) ⟨by decide, rfl, by decide, by decide⟩ nofun
    hwords hsettle
  rw [hsplit.1] at hwords
  have hvalue {o : CommandOption} (ho : o.Distinct commonOptions) (hcount : o.use ≠ .count)
      (value : String) : settled.value? o.name = some value ↔ Reading.Told o before value :=
    value?_common ho hcount hwords hsettle value
  have hpath (name : String) (check : String → Except UsageError Unit)
      (ho : CommandOption.Distinct commonOptions { name, use := .value check }) (path : String) :
      settled.value? name = some path ↔ Gives before name path :=
    (hvalue ho nofun path).trans (Reading.told_value_iff rfl)
  refine ⟨before, rest, (word_of_readCommand hcommand) ▸ hsplit.1, ?_, fun path => ?_,
    fun path => ?_, fun path => ?_, fun n => ?_, givenBy_of_readCommand hcommand⟩
  · rw [hi]
    have hmock := hvalue (o := { name := "mock-sgx", use := .toggle })
      ⟨by decide, rfl, by decide, by decide⟩ nofun
    show decide (settled.count "mock-sgx" ≠ 0) = true ↔ _
    rw [decide_eq_true_iff, count_ne_zero_iff]
    simp only [hmock, Reading.told_plain_iff (o := { name := "mock-sgx", use := .toggle }) nofun]
    exact ⟨fun h => h.choose_spec.1, fun h => ⟨"", h, rfl⟩⟩
  · have hconfig := hpath "config" checkPath
      ⟨by decide, rfl, by decide, by decide⟩
    unfold chosen at hchosen
    cases hgiven : settled.value? "config" with
    | some other =>
      rw [hgiven] at hchosen
      rw [← Except.ok.inj hchosen, ← hconfig, hgiven]
      refine ⟨.inl, fun h => h.elim id fun h => ?_⟩
      exact absurd ((hconfig other).mp hgiven) (h.1 other)
    | none =>
      have hnot (other : String) : ¬ Gives before "config" other := by
        rw [← hconfig, hgiven]
        nofun
      rw [hgiven] at hchosen
      have hsame : i.configFile = environment.lookup configVariable := by
        cases hvariable : environment.lookup configVariable with
        | none =>
          rw [hvariable] at hchosen
          exact (Except.ok.inj hchosen).symm
        | some other =>
          rw [hvariable] at hchosen
          dsimp only at hchosen
          cases hcheck : checkPath other with
          | error e =>
            rw [hcheck] at hchosen
            cases hchosen
          | ok _ =>
            rw [hcheck] at hchosen
            exact (Except.ok.inj hchosen).symm
      rw [hsame]
      exact ⟨fun h => .inr ⟨hnot, h⟩, fun h => h.elim (fun h => absurd h (hnot path)) fun h => h.2⟩
  · rw [hi]
    exact hpath "attestation-dir" checkPath
      ⟨by decide, rfl, by decide, by decide⟩ path
  · rw [hi]
    exact hpath "measurement-file" checkPath
      ⟨by decide, rfl, by decide, by decide⟩ path
  · have hseconds := hpath "io-timeout-secs" checkNumber
      ⟨by decide, rfl, by decide, by decide⟩
    rw [hi]
    show (settled.value? "io-timeout-secs").bind number? = some n ↔ _
    rw [Option.bind_eq_some_iff]
    exact exists_congr fun text => and_congr_left' (hseconds text)

/-! ## What the command line mentions -/

/-- **What a command line says about a setting.** -/
def flag? (i : Invocation) : Setting → Option Json
  | .mockSgx => if i.mockSgx then some (.bool true) else none
  | .attestationDir => i.attestationDir.map .string
  | .measurementFile => i.measurementFile.map .string
  | .ioTimeoutSecs => i.ioTimeoutSecs.map fun n : Nat => .integer n
  | .maxPayload =>
    match i.command with
    | .sealing job | .unsealing job => job.maxPayload.map fun n : Nat => .integer n
    | _ => none
  | .verifier =>
    match i.command with
    | .verify job => job.verifier.map fun kind => .string kind.name
    | _ => none
  | .verifierLibrary =>
    match i.command with
    | .verify job => job.library.map .string
    | _ => none
  | .verifierSymbol => none
  | .pccsUrl =>
    match i.command with
    | .verify job => job.serviceUrl.map .string
    | _ => none

/-- A layer with one mention, if there is a value. -/
theorem mention?_optional {α : Type} (value : Option α) (name other : String) (f : α → Json) :
    Layer.mention? (value.map fun a => (other, f a)).toList name
      = if name = other then value.map f else none := by
  cases value with
  | none =>
    rw [Option.map_none, Option.map_none, ite_self]
    rfl
  | some a => exact Layer.mention?_concat []

/-- **The layer of the command line** mentions for a setting what the command line says
about it. -/
theorem mention?_mentions (i : Invocation) (field : Setting) :
    Layer.mention? i.mentions field.name = i.flag? field := by
  have hmock : Layer.mention? (if i.mockSgx then [(Setting.mockSgx.name, Json.bool true)] else [])
      field.name = if field.name = Setting.mockSgx.name then
        (if i.mockSgx then some (Json.bool true) else none) else none := by
    cases i.mockSgx with
    | true => exact Layer.mention?_concat []
    | false => exact (ite_self _).symm
  -- a number is mentioned as an integer
  have hnumber {α : Type} (value : Option Nat) (f : Int → α) :
      (value : Option Int).map f = value.map fun n : Nat => f n := by
    cases value <;> rfl
  unfold mentions
  rw [hnumber, Layer.mention?_append, Layer.mention?_append, Layer.mention?_append,
    Layer.mention?_append, hmock, mention?_optional, mention?_optional, mention?_optional]
  unfold flag? commandMentions
  cases i.command <;>
    simp only [hnumber, Layer.mention?_append, mention?_optional, Layer.mention?_nil] <;>
    cases field <;> simp [Setting.name]

end Invocation

end Enclave
