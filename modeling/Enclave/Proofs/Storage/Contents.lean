import Enclave.Proofs.Storage.Resolution

/-!
# What files hold

A regular file is read whole and without a trace (`Holds.readAll`), and what else can
be read leaves all files as they were (`sameFiles_readAll`): a pipe forgets who waits
there, but it holds nothing of its own.

Writing comes down to one question: whether the path leads to a place for a regular
file, where nothing or such a file stands (`Receives`). If so, that place has the new
content and nothing else is touched (`Receives.replace`); if not, whatever the path
leads to, all files are as before (`sameFiles_replace`). Both together are
`replace_cases`.
-/

namespace Enclave

/-- A content that is delivered at once is read whole. -/
theorem Transfer.collect_length (content : Bytes) :
    collect content.length [.ok content] = .ok content := by
  cases content with
  | nil => rfl
  | cons b chunk =>
    have hlength : (b :: chunk).length ≠ 0 := Nat.succ_ne_zero _
    unfold collect
    rw [if_neg hlength]
    dsimp only
    rw [List.take_length]
    show Except.ok (b :: chunk ++ []) = _
    rw [List.append_nil]

namespace FileSystem

variable {fs fs' fs'' : FileSystem} {place place' : List String} {path : String}
  {content b : Bytes}

/-! ## Reading -/

/-- **A path leads to a regular file** with some content. -/
def Holds (fs : FileSystem) (path : String) (content : Bytes) : Prop :=
  ∃ place, fs.locate path = .ok (place, some (.file content))

/-- **The content of the regular file** that a path leads to. -/
def content? (fs : FileSystem) (path : String) : Option Bytes :=
  match fs.locate path with
  | .ok (_, some (.file content)) => some content
  | _ => none

theorem content?_eq_some_iff : fs.content? path = some content ↔ fs.Holds path content := by
  unfold content? Holds
  constructor
  · intro h
    split at h
    case h_1 place content' hlocate =>
      cases h
      exact ⟨place, hlocate⟩
    case h_2 => cases h
  · rintro ⟨place, hlocate⟩
    rw [hlocate]

/-- A path leads to a regular file exactly if there is a content. -/
theorem isSome_content? : (fs.content? path).isSome = fs.isFile path := by
  unfold content? isFile
  rcases fs.locate path with _ | ⟨_, _ | _ | _⟩ <;> rfl

theorem Holds.isFile (h : fs.Holds path content) : fs.isFile path = true := by
  rw [← isSome_content?, content?_eq_some_iff.mpr h]
  rfl

/-- **A regular file is read whole**, and nothing changes. -/
theorem Holds.readAll (h : fs.Holds path content) :
    fs.readAll path = (.finished (.ok content), fs) := by
  obtain ⟨place, hlocate⟩ := h
  unfold FileSystem.readAll read
  rw [hlocate]
  exact congrArg (fun r => (Outcome.finished r, fs)) (Transfer.collect_length content)

/-- **A file in the working directory** is held under its name. -/
theorem Plain.holds (h : Plain path)
    (hnode : fs.node? (workingDirectory ++ [path]) = some (.file content)) :
    fs.Holds path content :=
  ⟨_, h.resolve .target hnode nofun fun _ => nofun⟩

/-- A file has one content. -/
theorem Holds.unique (h : fs.Holds path content) (h' : fs.Holds path b) : content = b := by
  obtain ⟨place, hlocate⟩ := h
  obtain ⟨place', hlocate'⟩ := h'
  rw [hlocate] at hlocate'
  cases hlocate'
  rfl

/-! ## The same files -/

/-- **The same under a name, before and after**, who waits at a pipe aside. -/
def Alike (found found' : Option Node) : Prop :=
  found' = found ∨ ∃ p p', found = some (.pipe p) ∧ found' = some (.pipe p')

namespace Alike

variable {found found' found'' : Option Node}

theorem refl (found : Option Node) : Alike found found := .inl rfl

theorem symm (h : Alike found found') : Alike found' found := by
  rcases h with heq | ⟨p, p', hp, hp'⟩
  · exact .inl heq.symm
  · exact .inr ⟨p', p, hp', hp⟩

theorem trans (h : Alike found found') (h' : Alike found' found'') : Alike found found'' := by
  rcases h with rfl | ⟨p, p', hp, hp'⟩
  · exact h'
  · rcases h' with rfl | ⟨q, q', hq, hq'⟩
    · exact .inr ⟨p, p', hp, hp'⟩
    · exact .inr ⟨p, q', hp, hq'⟩

/-- What is no pipe is there before exactly if it is there after. -/
theorem eq_iff (h : Alike found found') (node : Option Node) (hpipe : ∀ p, node ≠ some (.pipe p)) :
    found = node ↔ found' = node := by
  rcases h with rfl | ⟨p, p', rfl, rfl⟩
  · exact Iff.rfl
  · exact ⟨fun h => absurd h.symm (hpipe p), fun h => absurd h.symm (hpipe p')⟩

theorem none_iff (h : Alike found found') : found = none ↔ found' = none :=
  h.eq_iff none fun _ => nofun

/-- A regular file is there before with the content that it has after. -/
theorem file_iff (h : Alike found found') (b : Bytes) :
    found = some (.file b) ↔ found' = some (.file b) :=
  h.eq_iff (some (.file b)) fun _ => nofun

/-- Where there is room for a regular file before, there is after. -/
theorem room (h : Alike found found') (hroom : found = none ∨ ∃ b, found = some (.file b)) :
    found' = none ∨ ∃ b, found' = some (.file b) :=
  hroom.imp h.none_iff.mp fun ⟨b, hfile⟩ => ⟨b, (h.file_iff b).mp hfile⟩

end Alike

/-- **File systems with the same files**: the same stands under every name. -/
def SameFiles (fs fs' : FileSystem) : Prop := ∀ place, Alike (fs.node? place) (fs'.node? place)

namespace SameFiles

theorem refl (fs : FileSystem) : SameFiles fs fs := fun _ => .refl _

theorem symm (h : SameFiles fs fs') : SameFiles fs' fs := fun place => (h place).symm

theorem trans (h : SameFiles fs fs') (h' : SameFiles fs' fs'') : SameFiles fs fs'' :=
  fun place => (h place).trans (h' place)

/-- With the same files there are the same ways. -/
theorem sameWays (h : SameFiles fs fs') : SameWays fs fs' :=
  ⟨fun place => (h place).eq_iff _ fun _ => nofun, fun place _ => (h place).eq_iff _ fun _ => nofun⟩

/-- Files keep their contents. -/
theorem holds (h : SameFiles fs fs') (hholds : fs.Holds path content) :
    fs'.Holds path content := by
  obtain ⟨place, hlocate⟩ := hholds
  have hnode : fs.node? place = some (.file content) := node?_of_resolve hlocate nofun
  refine ⟨place, (h.sameWays.resolve_node hlocate nofun).trans ?_⟩
  rw [((h place).file_iff content).mp hnode]

end SameFiles

/-- A pipe may be put where a pipe is. -/
theorem sameFiles_put_pipe {p : Pipe} (h : fs.node? place = some (.pipe p)) (p' : Pipe) :
    SameFiles fs (fs.put place (.pipe p')) := by
  intro other
  by_cases hother : other = place
  · subst hother
    have hroot : other ≠ [] := by
      rintro rfl
      cases h
    exact .inr ⟨p, p', h, node?_put_self hroot⟩
  · exact .inl (node?_put_of_ne hother)

/-- **Reading leaves all files as they were.** -/
theorem sameFiles_read (fs : FileSystem) (path : String) (room : Nat) :
    SameFiles fs (fs.read path room).2 := by
  unfold read
  split
  case h_1 => exact .refl fs
  case h_2 => exact .refl fs
  case h_3 place node hlocate =>
    split
    case h_1 p _ => exact sameFiles_put_pipe (node?_of_resolve hlocate nofun) _
    case h_2 => exact .refl fs
    case h_3 p _ => exact sameFiles_put_pipe (node?_of_resolve hlocate nofun) _
    case h_4 => exact .refl fs

theorem sameFiles_readAll (fs : FileSystem) (path : String) : SameFiles fs (fs.readAll path).2 :=
  sameFiles_read fs path _

/-! ## Writing -/

/-- **A path leads to a place for a regular file**: one stands there, or nothing
does. -/
def Receives (fs : FileSystem) (path : String) (place : List String) : Prop :=
  ∃ found, fs.resolve .creation path = .ok (place, found)
    ∧ (found = none ∨ ∃ old, found = some (.file old))

/-- **New content at a place**, and everything else as it was. -/
structure WrittenAt (place : List String) (b : Bytes) (fs fs' : FileSystem) : Prop where
  /-- The file at the place has the content. -/
  there : fs'.node? place = some (.file b)
  /-- Elsewhere, the same stands under every name. -/
  elsewhere : ∀ other, other ≠ place → Alike (fs.node? other) (fs'.node? other)

/-- What was written stays so while files stay the same before. -/
theorem WrittenAt.of_sameFiles (h : SameFiles fs fs') (h' : WrittenAt place b fs' fs'') :
    WrittenAt place b fs fs'' :=
  ⟨h'.there, fun other hother => (h other).trans (h'.elsewhere other hother)⟩

/-- **A name in the working directory** is a place for a regular file, unless something
else has it. -/
theorem Plain.receives (h : Plain path)
    (hnode : fs.node? (workingDirectory ++ [path]) = none
      ∨ ∃ old, fs.node? (workingDirectory ++ [path]) = some (.file old)) :
    fs.Receives path (workingDirectory ++ [path]) := by
  rcases hnode with hnone | ⟨old, hold⟩
  · exact ⟨_, h.resolve .creation hnone nofun fun _ => nofun, .inl rfl⟩
  · exact ⟨_, h.resolve .creation hold nofun fun _ => nofun, .inr ⟨old, rfl⟩⟩

namespace Receives

/-- There is nothing at the place, or a regular file. -/
theorem node?_eq (h : fs.Receives path place) :
    fs.node? place = none ∨ ∃ old, fs.node? place = some (.file old) := by
  obtain ⟨found, hresolve, rfl | ⟨old, rfl⟩⟩ := h
  · exact .inl (node?_of_resolve hresolve nofun)
  · exact .inr ⟨old, node?_of_resolve hresolve nofun⟩

/-- A path leads to one place. -/
theorem unique (h : fs.Receives path place) (h' : fs.Receives path place') : place = place' := by
  obtain ⟨found, hresolve, -⟩ := h
  obtain ⟨found', hresolve', -⟩ := h'
  cases hresolve.symm.trans hresolve'
  rfl

theorem ne_root (h : fs.Receives path place) : place ≠ [] := by
  obtain ⟨found, hresolve, rfl | ⟨old, rfl⟩⟩ := h <;> exact ne_root_of_resolve hresolve nofun

/-- **The place gets the content**, and nothing else is touched. -/
theorem replace (h : fs.Receives path place) (b : Bytes) :
    fs.replace path b = (.finished (.ok ()), fs.put place (.file b)) := by
  obtain ⟨found, hresolve, rfl | ⟨old, rfl⟩⟩ := h <;>
  · unfold FileSystem.replace
    rw [hresolve]

theorem writtenAt (h : fs.Receives path place) (b : Bytes) :
    WrittenAt place b fs (fs.put place (.file b)) :=
  ⟨node?_put_self h.ne_root, fun _ hother => .inl (node?_put_of_ne hother)⟩

/-- In file systems with the same ways, the path leads to the same place, which takes
a regular file if nothing else stands there now. -/
theorem of_sameWays (h : fs.Receives path place) (hways : SameWays fs fs')
    (hnode : fs'.node? place = none ∨ ∃ content, fs'.node? place = some (.file content)) :
    fs'.Receives path place := by
  obtain ⟨found, hresolve, hfound⟩ := h
  have hdirectory : found ≠ some .directory := by
    rintro rfl
    rcases hfound with h | ⟨old, h⟩ <;> cases h
  exact ⟨fs'.node? place, hways.resolve_node hresolve hdirectory, hnode⟩

/-- It does so while the files are the same. -/
theorem of_sameFiles (h : fs.Receives path place) (hfiles : SameFiles fs fs') :
    fs'.Receives path place :=
  h.of_sameWays hfiles.sameWays ((hfiles place).room h.node?_eq)

end Receives

namespace WrittenAt

/-- Writing a regular file changes no way. -/
theorem sameWays (h : WrittenAt place b fs fs')
    (hnode : fs.node? place = none ∨ ∃ old, fs.node? place = some (.file old)) :
    SameWays fs fs' := by
  have hkept (node : Node) (hfile : ∀ content, node ≠ .file content) (hpipe : ∀ p, node ≠ .pipe p)
      (other : List String) : fs.node? other = some node ↔ fs'.node? other = some node := by
    by_cases hother : other = place
    · subst hother
      rw [h.there, Option.some.injEq]
      refine ⟨fun hn => ?_, fun hn => absurd hn.symm (hfile b)⟩
      rcases hnode with hnone | ⟨old, hold⟩
      · rw [hnone] at hn
        cases hn
      · rw [hold, Option.some.injEq] at hn
        exact absurd hn.symm (hfile old)
    · exact (h.elsewhere other hother).eq_iff (some node) fun p hn => hpipe p (Option.some.inj hn)
  exact ⟨hkept .directory (fun _ => nofun) (fun _ => nofun),
    fun other target => hkept (.link target) (fun _ => nofun) (fun _ => nofun) other⟩

/-- **What was written can be read** under the same path. -/
theorem holds (h : WrittenAt place b fs fs') (hreceives : fs.Receives path place) :
    fs'.Holds path b := by
  have hthere := hreceives.of_sameWays (h.sameWays hreceives.node?_eq) (.inr ⟨b, h.there⟩)
  obtain ⟨found, hresolve, hfound⟩ := hthere
  have hdirectory : found ≠ some .directory := by
    rintro rfl
    rcases hfound with h | ⟨old, h⟩ <;> cases h
  have hnode : found = some (.file b) := (node?_of_resolve hresolve hdirectory).symm.trans h.there
  exact ⟨place, hnode ▸ locate_of_resolve hresolve⟩

end WrittenAt

/-- **Where there is no place for a regular file**, all files stay as they were. -/
theorem sameFiles_replace (h : ∀ place, ¬ fs.Receives path place) (b : Bytes) :
    SameFiles fs (fs.replace path b).2 := by
  unfold replace
  split
  case h_1 => exact .refl fs
  case h_2 place hresolve => exact absurd ⟨_, hresolve, .inl rfl⟩ (h place)
  case h_3 place old hresolve => exact absurd ⟨_, hresolve, .inr ⟨old, rfl⟩⟩ (h place)
  case h_4 place node hfile hresolve =>
    have hlocate : fs.locate path = .ok (place, some node) := locate_of_resolve hresolve
    have hsame : SameFiles fs (fs.write path b).2 := by
      unfold write
      rw [hlocate]
      cases node with
      | file old => exact absurd rfl (hfile old)
      | directory => exact .refl fs
      | link target => exact .refl fs
      | device kind => cases kind <;> exact .refl fs
      | pipe p =>
        dsimp only
        split <;> exact sameFiles_put_pipe (node?_of_resolve hlocate nofun) _
    split
    case h_1 fs' hwrite => rwa [hwrite] at hsame
    case h_2 fs' hwrite => rwa [hwrite] at hsame

/-- **A path leads to a device or a pipe**, which takes bytes without keeping them. -/
def Streams (fs : FileSystem) (path : String) : Prop :=
  ∃ place node, fs.resolve .creation path = .ok (place, some node)
    ∧ ((∃ kind, node = .device kind) ∨ ∃ p, node = .pipe p)

/-- It does not lead to a place for a regular file then. -/
theorem Receives.not_streams (h : fs.Receives path place) : ¬ fs.Streams path := by
  obtain ⟨found, hresolve, hfound⟩ := h
  rintro ⟨place', node, hresolve', hnode⟩
  rw [hresolve] at hresolve'
  cases hresolve'
  rcases hfound with hnone | ⟨old, hold⟩
  · cases hnone
  · cases hold
    rcases hnode with ⟨kind, hkind⟩ | ⟨p, hpipe⟩
    · cases hkind
    · cases hpipe

/-- It does so while the files are the same. -/
theorem Streams.of_sameFiles (h : fs.Streams path) (hfiles : SameFiles fs fs') :
    fs'.Streams path := by
  obtain ⟨place, node, hresolve, hnode⟩ := h
  have hdirectory : some node ≠ some .directory := by
    rcases hnode with ⟨kind, rfl⟩ | ⟨p, rfl⟩ <;> nofun
  have hbefore : fs.node? place = some node := node?_of_resolve hresolve hdirectory
  have hafter := hfiles.sameWays.resolve_node hresolve hdirectory
  have halike := hfiles place
  rcases hnode with ⟨kind, rfl⟩ | ⟨p, rfl⟩
  · rw [(halike.eq_iff (some (.device kind)) fun _ => nofun).mp hbefore] at hafter
    exact ⟨place, .device kind, hafter, .inl ⟨kind, rfl⟩⟩
  · rcases halike with heq | ⟨_, p', -, hp'⟩
    · rw [heq, hbefore] at hafter
      exact ⟨place, .pipe p, hafter, .inr ⟨p, rfl⟩⟩
    · rw [hp'] at hafter
      exact ⟨place, .pipe p', hafter, .inr ⟨p', rfl⟩⟩

/-- **What takes a content without keeping it** is a device or a pipe. -/
theorem streams_of_replace (h : ∀ place, ¬ fs.Receives path place)
    (hok : (fs.replace path b).1 = .finished (.ok ())) : fs.Streams path := by
  unfold replace at hok
  split at hok
  case h_1 => cases hok
  case h_2 place hresolve => exact absurd ⟨_, hresolve, .inl rfl⟩ (h place)
  case h_3 place old hresolve => exact absurd ⟨_, hresolve, .inr ⟨old, rfl⟩⟩ (h place)
  case h_4 place node hfile hresolve =>
    refine ⟨place, node, hresolve, ?_⟩
    unfold write at hok
    rw [locate_of_resolve hresolve] at hok
    cases node with
    | file old => exact absurd rfl (hfile old)
    | directory => cases hok
    | link target => cases hok
    | device kind => exact .inl ⟨kind, rfl⟩
    | pipe p => exact .inr ⟨p, rfl⟩

/-- **A content as a path has taken it**: it is what stands at the place of the path,
unless a device or a pipe took it, and no other file has changed. -/
def Delivered (fs : FileSystem) (path : String) (b : Bytes) (fs' : FileSystem) : Prop :=
  (∃ place, fs.Receives path place ∧ WrittenAt place b fs fs')
    ∨ fs.Streams path ∧ SameFiles fs fs'

theorem Delivered.of_sameFiles (h : SameFiles fs fs') (h' : fs'.Delivered path b fs'') :
    fs.Delivered path b fs'' := by
  rcases h' with ⟨place, hreceives, hwritten⟩ | ⟨hstreams, hsame⟩
  · exact .inl ⟨place, hreceives.of_sameFiles h.symm, hwritten.of_sameFiles h⟩
  · exact .inr ⟨hstreams.of_sameFiles h.symm, h.trans hsame⟩

/-- **Replacing delivers the content or leaves all files as they were.** -/
theorem replace_cases (fs : FileSystem) (path : String) (b : Bytes) :
    ((fs.replace path b).1 = .finished (.ok ()) ∧ fs.Delivered path b (fs.replace path b).2)
      ∨ (fs.replace path b).1 ≠ .finished (.ok ()) ∧ SameFiles fs (fs.replace path b).2 := by
  by_cases hreceives : ∃ place, fs.Receives path place
  · obtain ⟨place, hplace⟩ := hreceives
    rw [hplace.replace]
    exact .inl ⟨rfl, .inl ⟨place, hplace, hplace.writtenAt b⟩⟩
  · have hnot := not_exists.mp hreceives
    have hsame := sameFiles_replace hnot b
    by_cases hok : (fs.replace path b).1 = .finished (.ok ())
    · exact .inl ⟨hok, .inr ⟨streams_of_replace hnot hok, hsame⟩⟩
    · exact .inr ⟨hok, hsame⟩

end FileSystem

end Enclave
