import Enclave.Proofs.Command.Flags

/-!
# One more option

An accepted command line stays accepted when one more option with a value is put in front
of its other options, as long as none of them is the same (`Invocation.exists_parse_withText`).
Reading goes on as before, because no step of it looks at any option but the one it takes:
a reading with one more entry in front (`Reading.plus`) is taken to the same reading with
that entry in front, unless the entry is for the option that is taken
(`Reading.Overlooks`). This is shown for each way of taking a word, and then for words one
after the other (`Reading.words_plus`).

What stands behind a command is not looked at before the command is found, so that an
option of a command is added behind its word in the same way (`Reading.words_command`).
-/

namespace Enclave

namespace Reading

variable {name value other : String} {r r' : Reading} {options : List CommandOption}
  {o : CommandOption}

/-! ## A reading with one more entry -/

/-- **A reading with one more option in front** of those that were given. -/
def plus (r : Reading) (name value : String) : Reading :=
  { r with given := (name, value) :: r.given }

theorem count_plus_of_ne (r : Reading) (h : other ≠ name) :
    (r.plus name value).count other = r.count other := by
  unfold count plus
  rw [List.filter_cons_of_neg (by simpa using Ne.symm h)]

theorem count_le_plus (r : Reading) : r.count other ≤ (r.plus name value).count other :=
  ((List.sublist_cons_self _ _).filter _).length_le

theorem value?_plus_self (r : Reading) : (r.plus name value).value? name = some value :=
  List.lookup_cons_self

theorem value?_plus_of_ne (r : Reading) (h : other ≠ name) :
    (r.plus name value).value? other = r.value? other := by
  unfold value? plus
  rw [List.lookup_cons, beq_false_of_ne h]

theorem count_le_give (r : Reading) (o : CommandOption) (v : String) :
    r.count other ≤ (r.give o v).count other := by
  rw [count_give]
  exact Nat.le_add_right _ _

/-- **A step of reading overlooks an option**: it takes the option away from no reading,
and if it does not give it, an entry for it makes no difference. -/
def Overlooks (name value : String) (step : Reading → Except UsageError Reading) : Prop :=
  ∀ r r', step r = .ok r' → r.count name ≤ r'.count name
    ∧ (r'.count name = 0 → step (r.plus name value) = .ok (r'.plus name value))

/-- A step that fails overlooks everything. -/
theorem overlooks_error (e : UsageError) : Overlooks name value fun _ => .error e := by
  intro r r' h
  cases h

/-- So does a step that does nothing to what is given. -/
theorem overlooks_ok {change : Reading → Reading}
    (hsame : ∀ r, (change r).given = r.given)
    (hplus : ∀ r, change (r.plus name value) = (change r).plus name value) :
    Overlooks name value fun r => .ok (change r) := by
  intro r r' h
  cases h
  refine ⟨?_, fun _ => congrArg Except.ok (hplus r)⟩
  unfold count
  rw [hsame]

/-- One step after the other. -/
theorem Overlooks.bind {step next : Reading → Except UsageError Reading}
    (hstep : Overlooks name value step) (hnext : Overlooks name value next) :
    Overlooks name value fun r => step r >>= next := by
  intro r r' h
  obtain ⟨r₁, hr₁, hr'⟩ := ok_of_except_bind h
  obtain ⟨hle, hplus⟩ := hstep r r₁ hr₁
  obtain ⟨hle', hplus'⟩ := hnext r₁ r' hr'
  refine ⟨hle.trans hle', fun hcount => ?_⟩
  show step (r.plus name value) >>= next = _
  rw [hplus (Nat.le_zero.mp (hcount ▸ hle'))]
  exact hplus' hcount

/-- A step that only sees what was given before. -/
theorem overlooks_give (o : CommandOption) (v : String) :
    Overlooks name value fun r => .ok (r.give o v) := by
  intro r r' h
  cases h
  exact ⟨count_le_give r o v, fun _ => rfl⟩

/-- **Accepting** an option overlooks every other one. -/
theorem overlooks_accept (o : CommandOption) (v : String) :
    Overlooks name value fun r => r.accept o v := by
  intro r r' h
  obtain ⟨hcount, rfl⟩ := accept_eq_ok h
  refine ⟨count_le_give r o v, fun hnone => ?_⟩
  -- the option that is accepted is given in the end, so it is another one
  have hne : o.name ≠ name := by
    intro heq
    rw [count_give, if_pos heq] at hnone
    exact absurd hnone (Nat.succ_ne_zero _)
  dsimp only at h ⊢
  unfold accept at h ⊢
  rw [count_plus_of_ne r hne]
  rw [if_neg (not_not_intro hcount)] at h ⊢
  cases huse : o.use with
  | value check =>
    rw [huse] at h
    dsimp only at h ⊢
    cases hcheck : check v with
    | error e =>
      rw [hcheck] at h
      cases h
    | ok _ => rfl
  | toggle | count | help | version => rfl

/-- **Settling** overlooks every option whose value is not still to be looked at. -/
theorem overlooks_settle : Overlooks name value settle := by
  intro r r' h
  unfold settle at h
  split at h
  case h_1 hpending =>
    cases h
    refine ⟨le_rfl, fun _ => ?_⟩
    unfold settle plus
    rw [hpending]
  case h_2 => cases h
  case h_3 o v hpending =>
    obtain ⟨hle, hplus⟩ := overlooks_accept o v _ r' h
    refine ⟨hle, fun hnone => ?_⟩
    rw [← hplus hnone]
    unfold settle plus
    rw [hpending]

/-- Settling takes no option away. -/
theorem count_le_settle (h : r.settle = .ok r') : r.count name ≤ r'.count name :=
  ((overlooks_settle : Overlooks name "" settle) r r' h).1

/-- **An option without a value of its own**, or with one that is still to come. -/
theorem overlooks_takePlain (o : CommandOption) :
    Overlooks name value fun r => r.takePlain o := by
  refine overlooks_settle.bind ?_
  cases o.use with
  | help | version => exact overlooks_error _
  | count => exact overlooks_give o ""
  | toggle => exact overlooks_accept o ""
  | value check => exact overlooks_ok (fun _ => rfl) fun _ => rfl

/-- **An option by its name.** -/
theorem overlooks_takeNamed (n : String) (attached : Option String) :
    Overlooks name value fun r => takeNamed options r n attached := by
  unfold takeNamed
  cases options.find? (·.name = n) with
  | none => exact overlooks_error _
  | some o =>
    dsimp only
    cases o.use with
    | value check =>
      cases attached with
      | none => exact overlooks_takePlain o
      | some v => exact overlooks_settle.bind (overlooks_accept o v)
    | toggle | count | help | version =>
      cases attached with
      | none => exact overlooks_takePlain o
      | some v => exact overlooks_error _

/-- **Options by their letters.** -/
theorem overlooks_takeLetters (letters : List Char) :
    Overlooks name value fun r => takeLetters options r letters := by
  induction letters with
  | nil => exact overlooks_ok (fun _ => rfl) fun _ => rfl
  | cons c rest ih =>
    unfold takeLetters
    cases options.find? (·.letter = some c) with
    | none => exact overlooks_error _
    | some o =>
      dsimp only
      cases o.use with
      | value check =>
        cases rest with
        | nil => exact (overlooks_takePlain o).bind ih
        | cons d rest => exact overlooks_settle.bind (overlooks_accept o _)
      | toggle | count | help | version => exact (overlooks_takePlain o).bind ih

/-- **Any word.** -/
theorem overlooks_takeWord (stray : UsageError) (word : String) :
    Overlooks name value fun r => takeWord options stray r word := by
  unfold takeWord
  split
  case h_1 cs => exact overlooks_takeNamed _ _
  case h_2 c cs _ _ => exact overlooks_takeLetters (c :: cs)
  case h_3 =>
    intro r r' h
    dsimp only at h
    split at h
    case h_1 o hpending =>
      cases h
      refine ⟨le_rfl, fun _ => ?_⟩
      unfold plus
      rw [hpending]
    case h_2 => cases h

/-- **Words one after the other** overlook an option that they do not give. -/
theorem words_plus {commands ws : List String} {found : Option (String × List String)}
    (h : words options commands r ws = .ok (r', found)) :
    r.count name ≤ r'.count name ∧ (r'.count name = 0 →
      words options commands (r.plus name value) ws = .ok (r'.plus name value, found)) := by
  induction ws generalizing r with
  | nil =>
    cases h
    exact ⟨le_rfl, fun _ => rfl⟩
  | cons word rest ih =>
    have hawaits : (r.plus name value).awaitsValue = r.awaitsValue := rfl
    unfold words at h ⊢
    dsimp only at h ⊢
    rw [hawaits]
    split at h
    case isTrue hcommand =>
      cases h
      exact ⟨le_rfl, fun _ => if_pos hcommand⟩
    case isFalse hcommand =>
      rw [if_neg hcommand]
      split at h
      case isTrue hend =>
        rw [if_pos hend]
        split at h
        case h_1 =>
          cases h
          exact ⟨le_rfl, fun _ => rfl⟩
        case h_2 => split at h <;> cases h
      case isFalse hend =>
        rw [if_neg hend]
        split at h
        case h_1 r₁ htake =>
          obtain ⟨hle, hplus⟩ := overlooks_takeWord _ word r r₁ htake
          dsimp only at hplus
          obtain ⟨hle', hplus'⟩ := ih h
          refine ⟨hle.trans hle', fun hnone => ?_⟩
          rw [hplus (Nat.le_zero.mp (hnone ▸ hle'))]
          exact hplus' hnone
        case h_2 => cases h

/-! ## One more word -/

/-- **What stands behind a command** does not matter for what stands in front of it. -/
theorem words_command {commands ws rest : List String} {command : String}
    (h : words options commands r ws = .ok (r', some (command, rest))) :
    ∃ front, ws = front ++ command :: rest
      ∧ ∀ rest', words options commands r (front ++ command :: rest')
        = .ok (r', some (command, rest')) := by
  induction ws generalizing r with
  | nil => cases h
  | cons word ws ih =>
    unfold words at h
    dsimp only at h
    split at h
    case isTrue hcommand =>
      cases h
      exact ⟨[], rfl, fun rest' => if_pos hcommand⟩
    case isFalse hcommand =>
      split at h
      case isTrue =>
        split at h
        case h_1 => cases h
        case h_2 => split at h <;> cases h
      case isFalse hend =>
        split at h
        case h_1 r₁ htake =>
          obtain ⟨front, rfl, hfront⟩ := ih h
          refine ⟨word :: front, rfl, fun rest' => ?_⟩
          rw [List.cons_append]
          unfold words
          dsimp only
          rw [if_neg hcommand, if_neg hend, htake]
          exact hfront rest'
        case h_2 => cases h

/-- **One more word in front** gives the option in front of all others. -/
theorem words_attachedWord {commands : List String} {check : String → Except UsageError Unit}
    (ho : o.Distinct options) (huse : o.use = .value check) (hcheck : check value = .ok ())
    (hcommands : ∀ command ∈ commands, command.toList.head? ≠ some '-') (ws : List String) :
    words options commands {} (attachedWord o.name value :: ws)
      = words options commands (plus {} o.name value) ws := by
  have hchars := toList_attachedWord o.name value
  have hcommand : attachedWord o.name value ∉ commands := fun hmem =>
    hcommands _ hmem (by rw [hchars]; rfl)
  have hend : attachedWord o.name value ≠ "--" := by
    intro heq
    rw [heq] at hchars
    exact absurd (List.cons.inj (List.cons.inj hchars).2).2.symm
      (List.append_ne_nil_of_right_ne_nil _ nofun)
  have htake (stray : UsageError) :
      takeWord options stray {} (attachedWord o.name value) = .ok (plus {} o.name value) := by
    unfold takeWord
    rw [hchars]
    show takeNamed options {} (splitEquals (o.name.toList ++ '=' :: value.toList)).1
      (splitEquals (o.name.toList ++ '=' :: value.toList)).2 = _
    rw [splitEquals_value ho.plain, String.ofList_toList, String.ofList_toList]
    unfold takeNamed
    rw [ho.found]
    dsimp only
    rw [huse]
    show accept {} o value = _
    have hfresh : ({} : Reading).count o.name = 0 := rfl
    unfold accept
    rw [if_neg (not_not_intro hfresh), huse]
    dsimp only
    rw [hcheck]
    rfl
  conv_lhs => unfold words
  dsimp only
  rw [if_neg, if_neg hend, htake]
  rw [Bool.and_eq_true_iff, List.contains_iff_mem]
  exact fun h => hcommand h.2

/-- An entry that settling overlooks is there when all is settled. -/
theorem settle_plus (h : r.settle = .ok r') (hnone : r'.count name = 0) :
    (r.plus name value).settle = .ok (r'.plus name value) :=
  (overlooks_settle r r' h).2 hnone

end Reading

open Reading in
/-- **The options of a command** with one more in front. -/
theorem readOptions_attachedWord {options : List CommandOption} {o : CommandOption}
    {check : String → Except UsageError Unit} {value : String} {r : Reading} {ws : List String}
    (ho : o.Distinct options) (huse : o.use = .value check) (hcheck : check value = .ok ())
    (h : readOptions options ws = .ok r) (hnone : r.count o.name = 0) :
    readOptions options (attachedWord o.name value :: ws) = .ok (r.plus o.name value) := by
  unfold readOptions at h ⊢
  obtain ⟨⟨read, found⟩, hwords, h⟩ := ok_of_except_bind h
  obtain ⟨settled, hsettle, h⟩ := ok_of_except_bind h
  dsimp only at h
  split at h
  case isTrue => cases h
  case isFalse hneeded =>
    cases h
    have hread : read.count o.name = 0 :=
      Nat.le_zero.mp (hnone ▸ count_le_settle hsettle)
    rw [words_attachedWord ho huse hcheck (fun _ h => absurd h List.not_mem_nil),
      (words_plus hwords).2 hread]
    simp only [bind, Except.bind]
    rw [settle_plus hsettle hnone]
    dsimp only
    have hstill : ¬ (options.any fun o' =>
        o'.needed && (r.plus o.name value).count o'.name = 0) = true := by
      rw [List.any_eq_true] at hneeded ⊢
      rintro ⟨o', hmem, hmissing⟩
      refine hneeded ⟨o', hmem, ?_⟩
      rw [Bool.and_eq_true_iff, decide_eq_true_iff] at hmissing ⊢
      exact ⟨hmissing.1, Nat.le_zero.mp (hmissing.2 ▸ count_le_plus r)⟩
    rw [if_neg hstill]
    rfl

/-! ## Settings that are texts -/

/-- **The option that gives a setting a text** on the command line of a command, if there
is one. -/
def Setting.textOption? (command : Command) : Setting → Option String
  | .attestationDir => some "attestation-dir"
  | .measurementFile => some "measurement-file"
  | .verifierLibrary =>
    match command with
    | .verify _ => some "verifier-library"
    | _ => none
  | .pccsUrl =>
    match command with
    | .verify _ => some "pccs-url"
    | _ => none
  | _ => none

namespace Invocation

variable {environment environment' : List (String × String)} {words : List String}
  {i : Invocation} {field : Setting} {option s : String}

/-- **An invocation with a text for a setting**, if there is an option for that. -/
def withText (i : Invocation) (field : Setting) (s : String) : Invocation :=
  match field, i.command with
  | .attestationDir, _ => { i with attestationDir := some s }
  | .measurementFile, _ => { i with measurementFile := some s }
  | .verifierLibrary, .verify job => { i with command := .verify { job with library := some s } }
  | .pccsUrl, .verify job => { i with command := .verify { job with serviceUrl := some s } }
  | _, _ => i

@[simp] theorem configFile_withText (i : Invocation) (field : Setting) (s : String) :
    (i.withText field s).configFile = i.configFile := by
  unfold withText
  split <;> rfl

/-- **The text is what is said about the setting.** -/
theorem flag?_withText_self (h : field.textOption? i.command = some option) :
    (i.withText field s).flag? field = some (.string s) := by
  cases field with
  | attestationDir | measurementFile => rfl
  | verifierLibrary | pccsUrl =>
    unfold Setting.textOption? at h
    unfold withText flag?
    cases hcommand : i.command with
    | verify job => rfl
    | attest | sealing | unsealing | measurement =>
      rw [hcommand] at h
      cases h
  | mockSgx | ioTimeoutSecs | maxPayload | verifier | verifierSymbol => cases h

/-- **Nothing else is said about other settings.** -/
theorem flag?_withText_of_ne {other : Setting} (h : other ≠ field) :
    (i.withText field s).flag? other = i.flag? other := by
  unfold withText
  split
  case h_1 | h_2 => cases other <;> first | rfl | exact absurd rfl h
  case h_3 job hjob | h_4 job hjob =>
    unfold flag?
    rw [hjob]
    cases other <;> first | rfl | exact absurd rfl h
  case h_5 => rfl

/-- Only the variable for the settings file matters for how a command line is read. -/
theorem parse_congr
    (h : environment.lookup configVariable = environment'.lookup configVariable) :
    parse environment words = parse environment' words := by
  unfold parse
  rw [h]

/-- **When a command line is accepted**: this is the converse of `parse_eq_ok`. -/
theorem parse_of_reading {r settled : Reading} {name : String} {rest : List String}
    {command : Command} {configFile : Option String}
    (hwords : Reading.words commonOptions (commandNames ++ [helpCommand]) {} words
      = .ok (r, some (name, rest)))
    (hsettle : r.settle = .ok settled) (hcommand : readCommand name rest = .ok command)
    (hchosen : chosen environment settled = .ok configFile) :
    parse environment words = .ok (ofReading settled configFile command) := by
  have hname : name ≠ helpCommand := by
    rw [word_of_readCommand hcommand]
    cases command <;> exact of_decide_eq_true rfl
  unfold parse
  rw [hwords]
  simp only [bind, Except.bind]
  rw [if_neg hname, hcommand]
  simp only [Functor.map, Except.map]
  rw [hsettle]
  unfold chosen at hchosen
  dsimp only
  cases hvalue : settled.value? "config" with
  | some path =>
    rw [hvalue] at hchosen
    cases hchosen
    rfl
  | none =>
    rw [hvalue] at hchosen
    cases hvariable : environment.lookup configVariable with
    | none =>
      rw [hvariable] at hchosen
      cases hchosen
      rfl
    | some path =>
      rw [hvariable] at hchosen
      dsimp only at hchosen ⊢
      cases hcheck : checkPath path with
      | error e =>
        rw [hcheck] at hchosen
        cases hchosen
      | ok _ =>
        rw [hcheck] at hchosen
        cases hchosen
        rfl

/-- The settings file is chosen by no other option. -/
theorem chosen_plus (r : Reading) (h : "config" ≠ option) :
    chosen environment (r.plus option s) = chosen environment r := by
  unfold chosen
  rw [Reading.value?_plus_of_ne r h]

/-- An option without a value was not given. -/
theorem count_eq_zero {r : Reading} (h : r.value? option = none) : r.count option = 0 := by
  by_contra hcount
  obtain ⟨value, hvalue⟩ := count_ne_zero_iff.mp hcount
  exact absurd (h.symm.trans hvalue) nofun

/-- **One more option in front of a command line**: it is read into the same reading, with
the option in front of the others. -/
theorem exists_parse_attachedWord (h : parse environment words = .ok i) :
    ∃ settled, i = ofReading settled i.configFile i.command
      ∧ ∀ (o : CommandOption) (check : String → Except UsageError Unit),
        o.Distinct commonOptions → o.use = .value check → check s = .ok () →
        "config" ≠ o.name → settled.value? o.name = none →
        parse environment (attachedWord o.name s :: words)
          = .ok (ofReading (settled.plus o.name s) i.configFile i.command) := by
  obtain ⟨r, name, rest, settled, hwords, hsettle, hcommand, hchosen, hi⟩ := parse_eq_ok h
  refine ⟨settled, hi, fun o check ho huse hcheck hconfig hnone => ?_⟩
  have hcount := count_eq_zero hnone
  have hread : r.count o.name = 0 :=
    Nat.le_zero.mp (hcount ▸ Reading.count_le_settle hsettle)
  refine parse_of_reading ?_ (Reading.settle_plus hsettle hcount) hcommand
    ((chosen_plus settled hconfig).trans hchosen)
  rw [Reading.words_attachedWord ho huse hcheck (by decide)]
  exact (Reading.words_plus hwords).2 hread

/-- **One more option of a verification** goes right behind its word. -/
theorem exists_parse_verify {job : VerifyJob} (h : parse environment words = .ok i)
    (hjob : i.command = .verify job) :
    ∃ r front back, job = verifyJob r ∧ words = front ++ back
      ∧ ∀ (o : CommandOption) (check : String → Except UsageError Unit),
        o.Distinct verifyOptions → o.use = .value check → check s = .ok () →
        r.value? o.name = none →
        parse environment (front ++ attachedWord o.name s :: back)
          = .ok { i with command := .verify (verifyJob (r.plus o.name s)) } := by
  obtain ⟨r, name, rest, settled, hwords, hsettle, hcommand, hchosen, hi⟩ := parse_eq_ok h
  obtain rfl : name = "verify" := by
    rw [word_of_readCommand hcommand, hjob]
    rfl
  have hread : (do return Command.verify (verifyJob (← readOptions verifyOptions rest)))
      = .ok i.command := hcommand
  obtain ⟨read, hread, hverify⟩ := ok_of_except_bind hread
  rw [hjob] at hverify
  cases hverify
  obtain ⟨front, hsplit, hfront⟩ := Reading.words_command hwords
  have hplace : words = (front ++ ["verify"]) ++ rest := by
    rw [hsplit, List.append_assoc]
    rfl
  refine ⟨read, front ++ ["verify"], rest, rfl, hplace, fun o check ho huse hcheck hnone => ?_⟩
  have hword : readCommand "verify" (attachedWord o.name s :: rest)
      = .ok (.verify (verifyJob (read.plus o.name s))) := by
    unfold readCommand
    simp only [bind, Except.bind]
    rw [readOptions_attachedWord ho huse hcheck hread (count_eq_zero hnone)]
    rfl
  rw [List.append_assoc]
  refine (parse_of_reading (hfront _) hsettle hword hchosen).trans ?_
  conv_rhs => rw [hi]
  rfl

/-! ### What the option is for -/

theorem ofReading_attestationDir (r : Reading) (configFile : Option String) (command : Command) :
    ofReading (r.plus "attestation-dir" s) configFile command
      = (ofReading r configFile command).withText .attestationDir s := by
  unfold ofReading withText
  rw [Reading.value?_plus_self, Reading.count_plus_of_ne r (by decide),
    Reading.count_plus_of_ne r (by decide), Reading.value?_plus_of_ne r (by decide),
    Reading.value?_plus_of_ne r (by decide)]

theorem ofReading_measurementFile (r : Reading) (configFile : Option String)
    (command : Command) :
    ofReading (r.plus "measurement-file" s) configFile command
      = (ofReading r configFile command).withText .measurementFile s := by
  unfold ofReading withText
  rw [Reading.value?_plus_self, Reading.count_plus_of_ne r (by decide),
    Reading.count_plus_of_ne r (by decide), Reading.value?_plus_of_ne r (by decide),
    Reading.value?_plus_of_ne r (by decide)]

theorem verifyJob_library (r : Reading) :
    verifyJob (r.plus "verifier-library" s) = { verifyJob r with library := some s } := by
  unfold verifyJob
  rw [Reading.value?_plus_self, Reading.value?_plus_of_ne r (by decide),
    Reading.value?_plus_of_ne r (by decide), Reading.value?_plus_of_ne r (by decide),
    Reading.value?_plus_of_ne r (by decide)]

theorem verifyJob_serviceUrl (r : Reading) :
    verifyJob (r.plus "pccs-url" s) = { verifyJob r with serviceUrl := some s } := by
  unfold verifyJob
  rw [Reading.value?_plus_self, Reading.value?_plus_of_ne r (by decide),
    Reading.value?_plus_of_ne r (by decide), Reading.value?_plus_of_ne r (by decide),
    Reading.value?_plus_of_ne r (by decide)]

/-- An option of a verification is not there for other commands. -/
theorem verify_of_option {command : Command} {name : String}
    (h : (match command with
      | .verify _ => some name
      | _ => none) = some option) : ∃ job, command = .verify job ∧ name = option := by
  cases command with
  | verify job => exact ⟨job, rfl, Option.some.inj h⟩
  | attest | sealing | unsealing | measurement => cases h

/-- **A place in front of the command** for an option that says something about a setting. -/
theorem exists_common_parse_withText {name : String} (h : parse environment words = .ok i)
    (ho : CommandOption.Distinct commonOptions { name, use := .value checkPath })
    (hconfig : "config" ≠ name) (hflag : i.flag? field = none) (hs : s ≠ "")
    (hsaid : ∀ r, (ofReading r i.configFile i.command).flag? field
      = (r.value? name).map .string)
    (hadded : ∀ r, ofReading (r.plus name s) i.configFile i.command
      = (ofReading r i.configFile i.command).withText field s) :
    ∃ front back, words = front ++ back
      ∧ parse environment (front ++ attachedWord name s :: back) = .ok (i.withText field s) := by
  obtain ⟨settled, hi, hparse⟩ := exists_parse_attachedWord h
  rw [hi, hsaid] at hflag
  refine ⟨[], words, rfl, ?_⟩
  refine (hparse _ checkPath ho rfl (if_neg hs) hconfig (Option.map_eq_none_iff.mp hflag)).trans ?_
  rw [hadded, ← hi]

/-- **A place behind the word of a verification** for an option that says something about
a setting. -/
theorem exists_verify_parse_withText {name : String} {job : VerifyJob}
    {check : String → Except UsageError Unit} (h : parse environment words = .ok i)
    (hjob : i.command = .verify job)
    (ho : CommandOption.Distinct verifyOptions { name, use := .value check })
    (hcheck : check s = .ok ()) (hflag : i.flag? field = none)
    (hsaid : ∀ r, flag? { i with command := .verify (verifyJob r) } field
      = (r.value? name).map .string)
    (hadded : ∀ r, { i with command := .verify (verifyJob (r.plus name s)) }
      = withText { i with command := .verify (verifyJob r) } field s) :
    ∃ front back, words = front ++ back
      ∧ parse environment (front ++ attachedWord name s :: back) = .ok (i.withText field s) := by
  obtain ⟨r, front, back, rfl, hsplit, hparse⟩ := exists_parse_verify h hjob
  have hi : i = { i with command := .verify (verifyJob r) } := by rw [← hjob]
  rw [hi, hsaid] at hflag
  refine ⟨front, back, hsplit, ?_⟩
  refine (hparse _ check ho rfl hcheck (Option.map_eq_none_iff.mp hflag)).trans ?_
  rw [hadded, ← hi]

/-- **A text can be given to a setting that has none** on an accepted command line: there
is a place for one more word, after which the command line is accepted and asks for the
same with that text. -/
theorem exists_parse_withText (h : parse environment words = .ok i)
    (hoption : field.textOption? i.command = some option) (hflag : i.flag? field = none)
    (hs : s ≠ "") :
    ∃ front back, words = front ++ back
      ∧ parse environment (front ++ attachedWord option s :: back) = .ok (i.withText field s) := by
  cases field with
  | attestationDir =>
    cases hoption
    exact exists_common_parse_withText h ⟨by decide, rfl, by decide, by decide⟩ (by decide) hflag
      hs (fun _ => rfl) fun r => ofReading_attestationDir r _ _
  | measurementFile =>
    cases hoption
    exact exists_common_parse_withText h ⟨by decide, rfl, by decide, by decide⟩ (by decide) hflag
      hs (fun _ => rfl) fun r => ofReading_measurementFile r _ _
  | verifierLibrary =>
    obtain ⟨job, hjob, rfl⟩ := verify_of_option hoption
    refine exists_verify_parse_withText h hjob ⟨by decide, rfl, by decide, by decide⟩ (if_neg hs)
      hflag (fun _ => rfl) fun r => ?_
    rw [verifyJob_library]
    rfl
  | pccsUrl =>
    obtain ⟨job, hjob, rfl⟩ := verify_of_option hoption
    refine exists_verify_parse_withText h hjob ⟨by decide, rfl, by decide, by decide⟩ rfl
      hflag (fun _ => rfl) fun r => ?_
    rw [verifyJob_serviceUrl]
    rfl
  | mockSgx | ioTimeoutSecs | maxPayload | verifier | verifierSymbol => cases hoption

end Invocation

end Enclave
