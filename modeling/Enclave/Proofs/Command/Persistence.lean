import Enclave.Proofs.Command.Atomicity

/-!
# What outlives later runs

A file lives as long as no run writes it. `LaterRuns` are runs in mock mode, each on a
machine of its own with the files that the last one left, so that nothing but the files
connects them. Their outputs lead elsewhere than some kept paths (`Spares`).

Each of them at most puts a regular file where there was one or nothing, and that is
the invariant (`Outlives`): there are the same directories and links, so that paths
lead where they led, and the kept paths have the contents that they had. What settings
and measurements are read from kept paths stay the same, too.
-/

namespace Enclave

namespace FileSystem

variable {fs fs' fs'' : FileSystem} {path : String} {place : List String} {b : Bytes}

/-- **A path holds the same** if it leads the same way to the same. -/
theorem content?_eq_of_alike (hways : SameWays fs fs')
    (h : ∀ place found, fs.locate path = .ok (place, found) →
      Alike (fs.node? place) (fs'.node? place)) : fs'.content? path = fs.content? path := by
  refine Option.ext fun b => ?_
  rw [content?_eq_some_iff, content?_eq_some_iff]
  constructor
  · rintro ⟨place, hlocate⟩
    have hbefore := hways.symm.resolve_node hlocate nofun
    refine ⟨place, hbefore.trans ?_⟩
    rw [((h place _ hbefore).file_iff b).mpr (node?_of_resolve hlocate nofun)]
  · rintro ⟨place, hlocate⟩
    have hafter := hways.resolve_node hlocate nofun
    refine ⟨place, hafter.trans ?_⟩
    rw [((h place _ hlocate).file_iff b).mp (node?_of_resolve hlocate nofun)]

/-- **Files that have outlived something**: paths lead where they led, what was a place
for a regular file still is one, and the kept paths have the contents that they had. -/
structure Outlives (kept : String → Prop) (fs fs' : FileSystem) : Prop where
  /-- The directories and links are the same. -/
  ways : SameWays fs fs'
  /-- Where a regular file stood, or nothing, it is still so. -/
  room : ∀ place, (fs.node? place = none ∨ ∃ b, fs.node? place = some (.file b)) →
    fs'.node? place = none ∨ ∃ b, fs'.node? place = some (.file b)
  /-- What is kept has the same content. -/
  content : ∀ path, kept path → fs'.content? path = fs.content? path

namespace Outlives

variable {kept : String → Prop}

theorem refl (kept : String → Prop) (fs : FileSystem) : Outlives kept fs fs :=
  ⟨.refl fs, fun _ h => h, fun _ _ => rfl⟩

theorem trans (h : Outlives kept fs fs') (h' : Outlives kept fs' fs'') : Outlives kept fs fs'' :=
  ⟨h.ways.trans h'.ways, fun place hplace => h'.room place (h.room place hplace),
    fun path hpath => (h'.content path hpath).trans (h.content path hpath)⟩

theorem of_sameFiles (h : SameFiles fs fs') : Outlives kept fs fs' :=
  ⟨h.sameWays, fun place => (h place).room,
    fun _ _ => content?_eq_of_alike h.sameWays fun place _ _ => h place⟩

/-- **What is written elsewhere** is outlived. -/
theorem of_writtenAt (hreceives : fs.Receives path place) (h : WrittenAt place b fs fs')
    (hspared : ∀ other, kept other → ∀ found, fs.locate other ≠ .ok (place, found)) :
    Outlives kept fs fs' := by
  have hways := h.sameWays hreceives.node?_eq
  refine ⟨hways, fun other hother => ?_, fun other hkept => ?_⟩
  · by_cases hplace : other = place
    · rw [hplace]
      exact .inr ⟨b, h.there⟩
    · exact (h.elsewhere other hplace).room hother
  · refine content?_eq_of_alike hways fun place' found hlocate => h.elsewhere place' ?_
    rintro rfl
    exact hspared other hkept found hlocate

/-- A path that leads to a place for a regular file still does. -/
theorem receives (h : Outlives kept fs fs') (hreceives : fs.Receives path place) :
    fs'.Receives path place :=
  hreceives.of_sameWays h.ways (h.room place hreceives.node?_eq)

end Outlives

end FileSystem

/-! ## Later runs -/

/-- **A run spares a path** if its output does not lead to where the path leads. -/
def Spares (environment : List (String × String)) (words : List String) (files : FileSystem)
    (path : String) : Prop :=
  ∀ (i : Invocation) (k : Conversion (StateM Machine)) (place : List String) (found : Option Node),
    Invocation.parse environment words = .ok i → i.command.conversion? = some k →
    files.Receives k.output place → files.locate path ≠ .ok (place, found)

/-- **What is elsewhere is spared**: a path that leads to another place than the
output. -/
theorem spares_of_ne {environment : List (String × String)} {words : List String}
    {files : FileSystem} {path : String} {i : Invocation} {k : Conversion (StateM Machine)}
    {place place' : List String} {found : Option Node}
    (hparse : Invocation.parse environment words = .ok i) (hk : i.command.conversion? = some k)
    (houtput : files.Receives k.output place) (hpath : files.locate path = .ok (place', found))
    (hne : place' ≠ place) : Spares environment words files path := by
  intro i' k' other found' hparse' hk' hother hother'
  cases hparse.symm.trans hparse'
  cases hk.symm.trans hk'
  cases hpath.symm.trans hother'
  exact hne (hother.unique houtput)

/-- **Later runs in mock mode**, from files to those that are left in the end. Every run
is on some machine with the files so far, and spares the kept paths. -/
inductive LaterRuns (kept : String → Prop) (files : FileSystem) : FileSystem → Prop
  | none : LaterRuns kept files files
  | run {environment : List (String × String)} {words : List String} {w : Machine}
    (earlier : LaterRuns kept files w.files)
    (mock : ∀ i s, Invocation.parse environment words = .ok i →
      resultOf (loadSettings Machine.host environment i) w = .ok s → s.mockSgx = true)
    (spares : ∀ path, kept path → Spares environment words w.files path) :
    LaterRuns kept files (worldLeft (Enclave.run Machine.host environment words) w).files

variable {kept : String → Prop} {files files' : FileSystem}

/-- **A run in mock mode is outlived** by what it spares. -/
theorem outlives_run {environment : List (String × String)} {words : List String} {w : Machine}
    (hmock : ∀ i s, Invocation.parse environment words = .ok i →
      resultOf (loadSettings Machine.host environment i) w = .ok s → s.mockSgx = true)
    (hspares : ∀ path, kept path → Spares environment words w.files path) :
    w.files.Outlives kept (worldLeft (run Machine.host environment words) w).files := by
  rcases run_mock_cases hmock with ⟨-, hsame⟩ | ⟨i, answer, hparse, -, -, hcases⟩
  · exact .of_sameFiles hsame
  rcases hcases with ⟨-, hsame⟩ | ⟨k, content, written, hk, hcarried⟩
  · exact .of_sameFiles hsame
  rcases hcarried.output with ⟨place, hreceives, hwritten⟩ | ⟨-, hsame⟩
  · exact .of_writtenAt hreceives hwritten fun path hkept found =>
      hspares path hkept i k place found hparse hk hreceives
  · exact .of_sameFiles hsame

/-- **All later runs are outlived** by what they spare. -/
theorem LaterRuns.outlives (h : LaterRuns kept files files') : files.Outlives kept files' := by
  induction h with
  | none => exact .refl kept files
  | run _ mock spares ih => exact ih.trans (outlives_run mock spares)

/-! ## Settings and measurements from files that are kept -/

namespace Settings

/-- **The paths under which a settings file is looked for.** -/
def candidates (chosen : Option String) : List String :=
  match chosen with
  | some path => [path]
  | none => Path.upwards ("/" ++ "/".intercalate FileSystem.workingDirectory) defaultFile

/-- The settings file is a matter of the contents under these paths. -/
theorem fileIn_congr {chosen : Option String}
    (h : ∀ path ∈ candidates chosen, files'.content? path = files.content? path) :
    fileIn files' chosen = fileIn files chosen := by
  have hfirst (paths : List String)
      (h : ∀ path ∈ paths, files'.content? path = files.content? path) :
      paths.findSome? files'.content? = paths.findSome? files.content? := by
    induction paths with
    | nil => rfl
    | cons path paths ih =>
      rw [List.findSome?_cons, List.findSome?_cons, h path List.mem_cons_self,
        ih fun other hother => h other (List.mem_cons_of_mem _ hother)]
  cases chosen with
  | some path =>
    unfold fileIn
    dsimp only
    rw [h path List.mem_cons_self]
  | none => exact congrArg Except.ok (hfirst _ h)

/-- **Settings are the same again** as long as what is looked for is kept. -/
theorem resultOf_loadSettings_congr {w v : Machine} (h : w.files.Outlives kept v.files)
    (environment : List (String × String)) {i : Invocation}
    (hkept : ∀ path ∈ candidates i.configFile, kept path) :
    resultOf (loadSettings Machine.host environment i) v
      = resultOf (loadSettings Machine.host environment i) w := by
  rw [resultOf_loadSettings_host, resultOf_loadSettings_host,
    fileIn_congr fun path hpath => h.content path (hkept path hpath)]

/-- **The measurement is the same again** if its file is a regular one that is kept. -/
theorem StatesMeasurement.of_outlives {s : Settings} {m : Measurement}
    (h : s.StatesMeasurement files m) (houtlives : files.Outlives kept files')
    (hkept : ∀ path, s.measurementFile = some path → kept path ∧ files.isFile path = true) :
    s.StatesMeasurement files' m := by
  unfold StatesMeasurement at h ⊢
  cases hfile : s.measurementFile with
  | none =>
    rw [hfile] at h
    exact h
  | some path =>
    rw [hfile] at h
    dsimp only at h ⊢
    obtain ⟨hpath, hregular⟩ := hkept path hfile
    obtain ⟨content, hcontent⟩ := Option.isSome_iff_exists.mp
      (FileSystem.isSome_content?.trans hregular)
    have hbefore := FileSystem.content?_eq_some_iff.mp hcontent
    have hafter := FileSystem.content?_eq_some_iff.mp
      ((houtlives.content path hpath).trans hcontent)
    rw [hbefore.readAll] at h
    rw [hafter.readAll]
    exact h

end Settings

end Enclave
