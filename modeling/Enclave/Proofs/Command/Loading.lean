import Enclave.Machine
import Enclave.Proofs.Command.Signal
import Enclave.Proofs.Storage.Contents

/-!
# What a run finds before its command

On a machine, a run looks at files before it comes to its command, and it leaves no
trace there: regular files are all that it reads. What it finds is therefore a
function of the files: the content of the settings file (`Settings.fileIn`), and which
input is missing (`missingInput_host`).

A run on a machine then either ends before its command with the machine as it was, or
it starts its command on that very machine (`run_host_cases`).
-/

namespace Enclave

variable {σ ε ε' α β : Type}

/-! ## What programs leave -/

/-- One program after the other: the world that is left. -/
theorem worldLeft_bind (x : ExceptT ε (StateM σ) α) (f : α → ExceptT ε (StateM σ) β) (w : σ) :
    worldLeft (x >>= f) w
      = match resultOf x w with
        | .ok a => worldLeft (f a) (worldLeft x w)
        | .error _ => worldLeft x w := by
  unfold resultOf worldLeft
  rw [ExceptT.run_bind, StateT.run_bind]
  rcases StateT.run (ExceptT.run x) w with ⟨_ | _, _⟩ <;> rfl

/-- An action that cannot fail in front of a program. -/
theorem worldLeft_lift_bind (x : StateM σ α) (f : α → ExceptT ε (StateM σ) β) (w : σ) :
    worldLeft (ExceptT.lift x >>= f) w = worldLeft (f (x w).1) (x w).2 :=
  worldLeft_bind _ f w

/-- A program behind one that succeeds. -/
theorem run_bind_of_ok {x : ExceptT ε (StateM σ) α} {f : α → ExceptT ε (StateM σ) β} {w v : σ}
    {a : α} (h : x.run w = (.ok a, v)) : (x >>= f).run w = (f a).run v := by
  show StateT.run ((x >>= f).run) w = _
  rw [ExceptT.run_bind, StateT.run_bind]
  have hx : StateT.run x.run w = _ := h
  rw [hx]
  rfl

/-- A program behind one that fails. -/
theorem run_bind_of_error {x : ExceptT ε (StateM σ) α} {f : α → ExceptT ε (StateM σ) β} {w v : σ}
    {e : ε} (h : x.run w = (.error e, v)) : (x >>= f).run w = (.error e, v) := by
  show StateT.run ((x >>= f).run) w = _
  rw [ExceptT.run_bind, StateT.run_bind]
  have hx : StateT.run x.run w = _ := h
  rw [hx]
  rfl

/-- A program that succeeds, with its errors worded anew. -/
theorem run_adapt_of_ok {x : ExceptT ε (StateM σ) α} {w : σ} {a : α} (f : ε → ε')
    (h : resultOf x w = .ok a) : (x.adapt f).run w = (.ok a, worldLeft x w) :=
  congrArg (fun r : Except ε α => (r.mapError f, worldLeft x w)) h

/-- A program that fails, with its errors worded anew. -/
theorem run_adapt_of_error {x : ExceptT ε (StateM σ) α} {w : σ} {e : ε} (f : ε → ε')
    (h : resultOf x w = .error e) : (x.adapt f).run w = (.error (f e), worldLeft x w) :=
  congrArg (fun r : Except ε α => (r.mapError f, worldLeft x w)) h

/-- What succeeds has succeeded in both of its parts. -/
theorem ok_of_resultOf_bind {x : ExceptT ε (StateM σ) α} {f : α → ExceptT ε (StateM σ) β} {w : σ}
    {b : β} (h : resultOf (x >>= f) w = .ok b) :
    ∃ a, resultOf x w = .ok a ∧ resultOf (f a) (worldLeft x w) = .ok b := by
  rw [resultOf_bind] at h
  cases hx : resultOf x w with
  | error e =>
    rw [hx] at h
    cases h
  | ok a =>
    rw [hx] at h
    exact ⟨a, rfl, h⟩

/-- A decision that needs no world is its own result. -/
theorem resultOf_liftExcept (r : Except ε α) (w : σ) :
    resultOf (liftExcept r : ExceptT ε (StateM σ) α) w = r := by
  cases r <;> rfl

/-- **What a run leaves**: the world in which it ends, with its command or before. -/
theorem worldLeft_run (host : Host (StateM σ)) (environment : List (String × String))
    (words : List String) (w : σ) :
    worldLeft (run host environment words) w
      = match Invocation.parse environment words with
        | .error _ => w
        | .ok i =>
          match resultOf (loadSettings host environment i) w with
          | .error _ => worldLeft (loadSettings host environment i) w
          | .ok s =>
            let inputs := missingInput host i.command.inputs
              (worldLeft (loadSettings host environment i) w)
            if inputs.1.isSome then inputs.2 else worldLeft (i.command.run host s) inputs.2 := by
  unfold run
  cases Invocation.parse environment words with
  | error e => rfl
  | ok i =>
    dsimp only
    show worldLeft ((loadSettings host environment i).adapt RunError.settings >>= _) w = _
    rw [worldLeft_bind, resultOf_adapt, worldLeft_adapt]
    cases resultOf (loadSettings host environment i) w with
    | error e => rfl
    | ok s =>
      show worldLeft (ExceptT.lift (missingInput host i.command.inputs) >>= _) _ = _
      rw [worldLeft_lift_bind]
      rcases missingInput host i.command.inputs (worldLeft (loadSettings host environment i) w)
        with ⟨_ | ⟨what, path⟩, v⟩
      · show worldLeft (ExceptT.lift (i.command.run host s).run >>= _) v = _
        have hcommand : (i.command.run host s).run v
            = (resultOf (i.command.run host s) v, worldLeft (i.command.run host s) v) := rfl
        rw [worldLeft_lift_bind, hcommand]
        cases resultOf (i.command.run host s) v <;> rfl
      · rfl

namespace Started

variable {host : Host (StateM σ)} {environment : List (String × String)} {words : List String}
  {w v : σ} {i : Invocation} {s : Settings}

/-- A run that comes to its command answers what the command answers. -/
theorem resultOf_run (h : Started host environment words w i s v) :
    resultOf (run host environment words) w
      = match resultOf (i.command.run host s) v with
        | .ok response => .ok ⟨response, s, i.level⟩
        | .error e => .error (.command e s i.level) := by
  rw [Enclave.resultOf_run, h.invocation]
  dsimp only
  rw [h.settings]
  dsimp only
  rewrite [h.inputs]
  rfl

/-- It leaves what the command leaves. -/
theorem worldLeft_run (h : Started host environment words w i s v) :
    worldLeft (run host environment words) w = worldLeft (i.command.run host s) v := by
  rw [Enclave.worldLeft_run, h.invocation]
  dsimp only
  rw [h.settings]
  dsimp only
  rewrite [h.inputs]
  rfl

end Started

/-! ## Files as a machine reads them -/

namespace Machine

variable {w : Machine} {path : String} {content : Bytes}

/-- **A regular file is read whole, and without a trace.** -/
theorem run_readFile (h : w.files.Holds path content) :
    (host.readFile path).run w = (.ok content, w) :=
  congrArg (fun r : Outcome Bytes × FileSystem =>
    (answered r.1, ({ w with files := r.2 } : Machine))) h.readAll

theorem resultOf_readFile (h : w.files.Holds path content) :
    resultOf (host.readFile path) w = .ok content :=
  congrArg Prod.fst (run_readFile h)

theorem worldLeft_readFile (h : w.files.Holds path content) :
    worldLeft (host.readFile path) w = w :=
  congrArg Prod.snd (run_readFile h)

/-- Reading anything leaves all files as they were. -/
theorem sameFiles_readFile (w : Machine) (path : String) :
    w.files.SameFiles (worldLeft (host.readFile path) w).files :=
  FileSystem.sameFiles_readAll w.files path

end Machine

/-- **The content of the settings file** among some files: of the one that is chosen,
which has to be there, or of the first one on the way up from the working directory. -/
def Settings.fileIn (files : FileSystem) (chosen : Option String) :
    Except SettingsError (Option Bytes) :=
  match chosen with
  | some path =>
    match files.content? path with
    | some content => .ok (some content)
    | none => .error (.missingFile path)
  | none =>
    let directory := "/" ++ "/".intercalate FileSystem.workingDirectory
    .ok ((Path.upwards directory defaultFile).findSome? files.content?)

/-- A settings file that is chosen and there is the one. -/
theorem Settings.fileIn_of_holds {files : FileSystem} {path : String} {content : Bytes}
    (h : files.Holds path content) : fileIn files (some path) = .ok (some content) := by
  unfold fileIn
  dsimp only
  rw [FileSystem.content?_eq_some_iff.mpr h]

/-- The first path that leads to a regular file is found without a trace. -/
theorem firstFile_host (paths : List String) (w : Machine) :
    firstFile Machine.host paths w = (paths.find? w.files.isFile, w) := by
  induction paths with
  | nil => rfl
  | cons path paths ih =>
    show (if w.files.isFile path then (pure (some path) : StateM Machine (Option String))
      else firstFile Machine.host paths) w = _
    rw [List.find?_cons]
    cases w.files.isFile path with
    | true => rfl
    | false => exact ih

/-- **The first input that is missing** is found without a trace. -/
theorem missingInput_host (inputs : List (String × String)) (w : Machine) :
    missingInput Machine.host inputs w
      = (inputs.find? fun input => !w.files.isFile input.2, w) := by
  induction inputs with
  | nil => rfl
  | cons input inputs ih =>
    obtain ⟨what, path⟩ := input
    show (if w.files.isFile path then missingInput Machine.host inputs
      else (pure (some (what, path)) : StateM Machine (Option (String × String)))) w = _
    rw [List.find?_cons]
    cases w.files.isFile path with
    | true => exact ih
    | false => rfl

/-- The settings file is looked for without a trace. -/
theorem run_findSettingsFile_host (chosen : Option String) (w : Machine) :
    (findSettingsFile Machine.host chosen).run w
      = (match chosen with
        | some path => if w.files.isFile path then .ok (some path) else .error (.missingFile path)
        | none => .ok ((Path.upwards ("/" ++ "/".intercalate FileSystem.workingDirectory)
            Settings.defaultFile).find? w.files.isFile), w) := by
  cases chosen with
  | some path =>
    show ((if w.files.isFile path then pure (some path) else throw (.missingFile path) :
      ExceptT SettingsError (StateM Machine) (Option String)).run) w = _
    dsimp only
    by_cases h : w.files.isFile path = true
    · rw [if_pos h, if_pos h]
      rfl
    · rw [if_neg h, if_neg h]
      rfl
  | none =>
    have hfirst := firstFile_host (Path.upwards ("/" ++ "/".intercalate FileSystem.workingDirectory)
      Settings.defaultFile) w
    exact congrArg (fun r : Option String × Machine => (Except.ok r.1, r.2)) hfirst

/-- The first content among those of some paths is that of the first regular file. -/
theorem findSome?_content? (files : FileSystem) (paths : List String) :
    paths.findSome? files.content? = (paths.find? files.isFile).bind files.content? := by
  induction paths with
  | nil => rfl
  | cons path paths ih =>
    rw [List.findSome?_cons, List.find?_cons, ← FileSystem.isSome_content?]
    cases hcontent : files.content? path with
    | none => exact ih
    | some content => exact hcontent.symm

/-- **Settings are loaded without a trace**, from the content of the settings file,
the environment and the command line. -/
theorem run_loadSettings_host (environment : List (String × String)) (i : Invocation)
    (w : Machine) :
    (loadSettings Machine.host environment i).run w
      = (Settings.fileIn w.files i.configFile >>= fun content =>
          Settings.load content environment i.mentions, w) := by
  have hload (content : Option Bytes) :
      (liftExcept (Settings.load content environment i.mentions) :
        ExceptT SettingsError (StateM Machine) Settings).run w
        = (Settings.load content environment i.mentions, w) := by
    cases Settings.load content environment i.mentions <;> rfl
  have hfound {path : String} {content : Bytes} (hholds : w.files.Holds path content)
      (hfind : (findSettingsFile Machine.host i.configFile).run w = (.ok (some path), w)) :
      (loadSettings Machine.host environment i).run w
        = (Settings.load (some content) environment i.mentions, w) := by
    have hread : (liftM (Machine.host.readFile path).run :
        ExceptT SettingsError (StateM Machine) (Except IoError Bytes)).run w
          = (.ok (.ok content), w) :=
      congrArg (fun r : Except IoError Bytes × Machine => (Except.ok r.1, r.2))
        (Machine.run_readFile hholds)
    unfold loadSettings
    rw [run_bind_of_ok hfind]
    dsimp only
    rw [run_bind_of_ok hread]
    exact hload (some content)
  have hfind := run_findSettingsFile_host i.configFile w
  unfold Settings.fileIn
  cases hchosen : i.configFile with
  | some path =>
    rw [hchosen] at hfind hfound
    dsimp only at hfind ⊢
    rw [← FileSystem.isSome_content?] at hfind
    cases hcontent : w.files.content? path with
    | none =>
      rw [hcontent, if_neg nofun] at hfind
      unfold loadSettings
      rw [hchosen, run_bind_of_error hfind]
      rfl
    | some content =>
      rw [hcontent] at hfind
      exact hfound (FileSystem.content?_eq_some_iff.mp hcontent) hfind
  | none =>
    rw [hchosen] at hfind hfound
    dsimp only at hfind ⊢
    rw [findSome?_content?]
    cases hpath : (Path.upwards ("/" ++ "/".intercalate FileSystem.workingDirectory)
      Settings.defaultFile).find? w.files.isFile with
    | none =>
      rw [hpath] at hfind
      unfold loadSettings
      rw [hchosen, run_bind_of_ok hfind]
      exact hload none
    | some path =>
      rw [hpath] at hfind
      have hfile : (w.files.content? path).isSome = true :=
        FileSystem.isSome_content?.trans (List.find?_some hpath)
      obtain ⟨content, hcontent⟩ := Option.isSome_iff_exists.mp hfile
      show _ = (Except.ok (w.files.content? path) >>= _, w)
      rw [hcontent]
      exact hfound (FileSystem.content?_eq_some_iff.mp hcontent) hfind

theorem resultOf_loadSettings_host (environment : List (String × String)) (i : Invocation)
    (w : Machine) :
    resultOf (loadSettings Machine.host environment i) w
      = Settings.fileIn w.files i.configFile >>= fun content =>
          Settings.load content environment i.mentions :=
  congrArg Prod.fst (run_loadSettings_host environment i w)

theorem worldLeft_loadSettings_host (environment : List (String × String)) (i : Invocation)
    (w : Machine) : worldLeft (loadSettings Machine.host environment i) w = w :=
  congrArg Prod.snd (run_loadSettings_host environment i w)

/-! ## Runs on a machine -/

variable {environment : List (String × String)} {words : List String} {w v : Machine}
  {i : Invocation} {s : Settings}

/-- **A run on a machine comes to its command** on that very machine, if all inputs
are regular files. -/
theorem started_host_iff :
    Started Machine.host environment words w i s v
      ↔ Invocation.parse environment words = .ok i
        ∧ resultOf (loadSettings Machine.host environment i) w = .ok s
        ∧ (∀ input ∈ i.command.inputs, w.files.isFile input.2 = true) ∧ v = w := by
  have hinputs : missingInput Machine.host i.command.inputs
        (worldLeft (loadSettings Machine.host environment i) w) = (none, v)
      ↔ (∀ input ∈ i.command.inputs, w.files.isFile input.2 = true) ∧ v = w := by
    rw [worldLeft_loadSettings_host, missingInput_host, Prod.mk.injEq, List.find?_eq_none]
    refine and_congr (forall₂_congr fun input _ => ?_) eq_comm
    rw [Bool.not_eq_true', Bool.not_eq_false]
  constructor
  · rintro ⟨hparse, hsettings, hmissing⟩
    exact ⟨hparse, hsettings, hinputs.mp hmissing⟩
  · rintro ⟨hparse, hsettings, h⟩
    exact ⟨hparse, hsettings, hinputs.mpr h⟩

/-- **A run on a machine** fails before its command, with the machine as it was, or
comes to its command on that very machine. -/
theorem run_host_cases (environment : List (String × String)) (words : List String)
    (w : Machine) :
    ((∃ e, resultOf (run Machine.host environment words) w = .error e)
        ∧ worldLeft (run Machine.host environment words) w = w)
      ∨ ∃ i s, Started Machine.host environment words w i s w := by
  rw [resultOf_run, worldLeft_run]
  cases hparse : Invocation.parse environment words with
  | error e => exact .inl ⟨⟨_, rfl⟩, rfl⟩
  | ok i =>
    dsimp only
    rw [worldLeft_loadSettings_host, missingInput_host]
    cases hsettings : resultOf (loadSettings Machine.host environment i) w with
    | error e => exact .inl ⟨⟨_, rfl⟩, rfl⟩
    | ok s =>
      cases hmissing : i.command.inputs.find? fun input => !w.files.isFile input.2 with
      | some input => exact .inl ⟨⟨_, rfl⟩, rfl⟩
      | none =>
        refine .inr ⟨i, s, hparse, hsettings, ?_⟩
        rw [worldLeft_loadSettings_host, missingInput_host, hmissing]

end Enclave
