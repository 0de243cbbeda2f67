import Enclave.Storage.FileSystem

/-!
# Where paths lead

A path is followed name by name, and what decides the way are directories and
links alone. `Leads` has one rule for each kind of step, and following a path
succeeds exactly along such rules (`walk_eq_ok_iff`).

So two file systems with the same directories and links have the same ways
(`SameWays`), and a path that leads to a place in the one leads there in the other,
where it may find something else (`SameWays.resolve`). Commands write regular files
only. That is why a path means the same place before and after them.
-/

namespace Enclave.FileSystem

variable {fs fs' fs'' : FileSystem} {purpose : Purpose} {links : Nat}
  {here rest place place' : List String} {name path : String} {node : Node} {found : Option Node}

/-! ## Names and what stands there -/

/-- What was put under a name stands there. -/
theorem node?_put_self (h : place ≠ []) : (fs.put place node).node? place = some node := by
  have hmap (entries : List (List String × Node)) (hmem : entries.any (·.1 = place) = true) :
      (entries.map fun e => if e.1 = place then (place, node) else e).lookup place = some node := by
    induction entries with
    | nil => cases hmem
    | cons e entries ih =>
      obtain ⟨n, old⟩ := e
      by_cases he : n = place
      · rw [List.map_cons, if_pos he, List.lookup_cons_self]
      · rw [List.any_cons, decide_eq_false he, Bool.false_or] at hmem
        rw [List.map_cons, if_neg he, List.lookup_cons, beq_false_of_ne (Ne.symm he), ih hmem]
  unfold node? put
  rw [if_neg h]
  split
  case isTrue hmem => exact hmap fs.entries hmem
  case isFalse hmem =>
    have hnone : fs.entries.lookup place = none := by
      rw [List.lookup_eq_none_iff]
      intro e he
      rw [bne_iff_ne]
      rintro rfl
      exact hmem (List.any_eq_true.mpr ⟨e, he, decide_eq_true rfl⟩)
    show (fs.entries ++ [(place, node)]).lookup place = some node
    rw [List.lookup_append, hnone, List.lookup_cons_self]
    rfl

/-- Under every other name, it is as before. -/
theorem node?_put_of_ne (h : place' ≠ place) :
    (fs.put place node).node? place' = fs.node? place' := by
  have hne : (place' == place) = false := beq_false_of_ne h
  have hmap (entries : List (List String × Node)) :
      (entries.map fun e => if e.1 = place then (place, node) else e).lookup place'
        = entries.lookup place' := by
    induction entries with
    | nil => rfl
    | cons e entries ih =>
      obtain ⟨n, old⟩ := e
      by_cases he : n = place
      · rw [List.map_cons, if_pos he, List.lookup_cons, List.lookup_cons, he, hne, ih]
      · rw [List.map_cons, if_neg he, List.lookup_cons, List.lookup_cons, ih]
  unfold node? put
  split
  · rfl
  · split
    · exact hmap fs.entries
    · show (fs.entries ++ [(place, node)]).lookup place' = _
      rw [List.lookup_append, List.lookup_cons, hne, List.lookup_nil, Option.or_none]

/-! ## Following a path -/

/-- **A name that is looked up**: it does not stay or go up, it is not too long, and
no file is to be created under it that ends with a slash. -/
structure LookedUp (purpose : Purpose) (name : String) (rest : List String) : Prop where
  /-- It leads somewhere. -/
  moves : ¬ Path.stays name = true
  /-- It does not lead up. -/
  down : name ≠ ".."
  /-- It is not a directory that is to be created as a file. -/
  creatable : ¬ (purpose = .creation ∧ rest = [""])
  /-- It is not too long. -/
  short : ¬ maxName < name.utf8ByteSize

/-- **Steps from a directory lead to a place**, with what is found there. -/
inductive Leads (fs : FileSystem) (purpose : Purpose) :
    Nat → List String → List String → List String → Option Node → Prop
  /-- Without steps one stays in the directory. -/
  | arrived {links : Nat} {here : List String} :
    Leads fs purpose links here [] here (some .directory)
  | stay {links : Nat} {here rest place : List String} {name : String} {found : Option Node}
    (h : Path.stays name = true) (next : Leads fs purpose links here rest place found) :
    Leads fs purpose links here (name :: rest) place found
  | up {links : Nat} {here rest place : List String} {found : Option Node}
    (next : Leads fs purpose links here.dropLast rest place found) :
    Leads fs purpose links here (".." :: rest) place found
  | enter {links : Nat} {here rest place : List String} {name : String} {found : Option Node}
    (h : LookedUp purpose name rest) (hnode : fs.node? (here ++ [name]) = some .directory)
    (next : Leads fs purpose links (here ++ [name]) rest place found) :
    Leads fs purpose links here (name :: rest) place found
  | follow {links : Nat} {here rest place : List String} {name target : String}
    {found : Option Node} (h : LookedUp purpose name rest)
    (hnode : fs.node? (here ++ [name]) = some (.link target))
    (hpurpose : ¬ (rest = [] ∧ purpose = .entry))
    (next : Leads fs purpose links (if Path.isAbsolute target then [] else here)
      (Path.steps target ++ rest) place found) :
    Leads fs purpose (links + 1) here (name :: rest) place found
  /-- The last name may stand for anything but a directory, or for nothing. -/
  | last {links : Nat} {here : List String} {name : String} {found : Option Node}
    (h : LookedUp purpose name []) (hnode : fs.node? (here ++ [name]) = found)
    (hdirectory : found ≠ some .directory)
    (hlink : ∀ target, found = some (.link target) → purpose = .entry) :
    Leads fs purpose links here [name] (here ++ [name]) found

/-- **A way that leads to a place is followed** to it. -/
theorem Leads.walk_eq {steps : List String} (h : Leads fs purpose links here steps place found) :
    fs.walk purpose links here steps = .ok (place, found) := by
  induction h with
  | arrived => rw [walk]
  | stay hstays _ ih => rw [walk, if_pos hstays, ih]
  | up _ ih => rw [walk, if_neg (by decide), if_pos rfl, ih]
  | enter h hnode _ ih =>
    rw [walk, if_neg h.moves, if_neg h.down, if_neg h.creatable, if_neg h.short]
    dsimp only
    rw [hnode]
    exact ih
  | follow h hnode hpurpose _ ih =>
    rw [walk, if_neg h.moves, if_neg h.down, if_neg h.creatable, if_neg h.short]
    dsimp only
    rw [hnode]
    exact (if_neg hpurpose).trans ih
  | @last links here name found h hnode hdirectory hlink =>
    rw [walk, if_neg h.moves, if_neg h.down, if_neg h.creatable, if_neg h.short]
    dsimp only
    rw [hnode]
    cases found with
    | none => rfl
    | some node =>
      cases node with
      | directory => exact absurd rfl hdirectory
      | link target => exact if_pos ⟨rfl, hlink target rfl⟩
      | file content | pipe state | device kind => rfl

/-- **Following steps succeeds** exactly if they lead somewhere. -/
theorem walk_eq_ok_iff {steps : List String} :
    fs.walk purpose links here steps = .ok (place, found)
      ↔ Leads fs purpose links here steps place found := by
  refine ⟨fun h => ?_, Leads.walk_eq⟩
  fun_induction walk fs purpose links here steps with
  | case1 =>
    cases h
    exact .arrived
  | case2 links here name rest hstays ih => exact .stay hstays (ih h)
  | case3 links here rest hstays ih => exact .up (ih h)
  -- a name that cannot be created or is too long leads nowhere
  | case4 => cases h
  | case5 => cases h
  | case6 links here name hstays hup hshort place' hnode hcreation =>
    obtain ⟨rfl, rfl⟩ := Prod.mk.inj (Except.ok.inj h)
    exact .last ⟨hstays, hup, hcreation, hshort⟩ hnode nofun nofun
  | case7 => cases h
  | case8 links here name rest hstays hup hcreation hshort place' hnode ih =>
    exact .enter ⟨hstays, hup, hcreation, hshort⟩ hnode (ih h)
  | case9 links here name rest hstays hup hcreation hshort place' target hnode hentry =>
    obtain ⟨rfl, rfl⟩ := Prod.mk.inj (Except.ok.inj h)
    obtain ⟨rfl, rfl⟩ := hentry
    exact .last ⟨hstays, hup, hcreation, hshort⟩ hnode nofun fun _ _ => rfl
  | case10 => cases h
  | case11 here name rest hstays hup hcreation hshort place' target hnode hentry k ih =>
    exact .follow ⟨hstays, hup, hcreation, hshort⟩ hnode hentry (ih h)
  | case12 links here name hstays hup hshort place' node hdirectory hlink hnode hcreation =>
    obtain ⟨rfl, rfl⟩ := Prod.mk.inj (Except.ok.inj h)
    exact .last ⟨hstays, hup, hcreation, hshort⟩ hnode (fun h => hdirectory (Option.some.inj h))
      fun target h => absurd (Option.some.inj h) (hlink target)
  | case13 => cases h

/-- What is found stands at the place, unless it is a directory. -/
theorem Leads.node?_eq {steps : List String} (h : Leads fs purpose links here steps place found)
    (hfound : found ≠ some .directory) : fs.node? place = found := by
  induction h with
  | arrived => exact absurd rfl hfound
  | stay _ _ ih => exact ih hfound
  | up _ ih => exact ih hfound
  | enter _ _ _ ih => exact ih hfound
  | follow _ _ _ _ ih => exact ih hfound
  | last _ hnode _ _ => exact hnode

/-- **Where a file can be created, a path leads for reading.** -/
theorem Leads.target {steps : List String}
    (h : Leads fs .creation links here steps place found) :
    Leads fs .target links here steps place found := by
  have hlookedUp {name : String} {rest : List String} (h : LookedUp .creation name rest) :
      LookedUp .target name rest := ⟨h.moves, h.down, nofun, h.short⟩
  induction h with
  | arrived => exact .arrived
  | stay hstays _ ih => exact .stay hstays ih
  | up _ ih => exact .up ih
  | enter h hnode _ ih => exact .enter (hlookedUp h) hnode ih
  | follow h hnode _ _ ih => exact .follow (hlookedUp h) hnode nofun ih
  | last h hnode hdirectory hlink =>
    exact .last (hlookedUp h) hnode hdirectory fun target h => absurd (hlink target h) nofun

/-! ## The same ways -/

/-- **File systems with the same ways**: they have the same directories and links.
What else there is may differ. -/
structure SameWays (fs fs' : FileSystem) : Prop where
  /-- The directories are the same. -/
  directory : ∀ place, fs.node? place = some .directory ↔ fs'.node? place = some .directory
  /-- The links are the same. -/
  link : ∀ place target, fs.node? place = some (.link target)
    ↔ fs'.node? place = some (.link target)

namespace SameWays

theorem refl (fs : FileSystem) : SameWays fs fs := ⟨fun _ => Iff.rfl, fun _ _ => Iff.rfl⟩

theorem symm (h : SameWays fs fs') : SameWays fs' fs :=
  ⟨fun place => (h.directory place).symm, fun place target => (h.link place target).symm⟩

theorem trans (h : SameWays fs fs') (h' : SameWays fs' fs'') : SameWays fs fs'' :=
  ⟨fun place => (h.directory place).trans (h'.directory place),
    fun place target => (h.link place target).trans (h'.link place target)⟩

/-- **What stands at a place**, if steps lead there and find no directory. -/
def standing (fs : FileSystem) (place : List String) (found : Option Node) : Option Node :=
  if found = some .directory then found else fs.node? place

/-- **Steps lead to the same place** in file systems with the same ways. -/
theorem leads (hways : SameWays fs fs') {steps : List String}
    (h : Leads fs purpose links here steps place found) :
    Leads fs' purpose links here steps place (standing fs' place found) := by
  induction h with
  | arrived =>
    unfold standing
    rw [if_pos rfl]
    exact .arrived
  | stay hstays _ ih => exact .stay hstays ih
  | up _ ih => exact .up ih
  | enter h hnode _ ih => exact .enter h ((hways.directory _).mp hnode) ih
  | follow h hnode hpurpose _ ih => exact .follow h ((hways.link _ _).mp hnode) hpurpose ih
  | last h hnode hdirectory hlink =>
    unfold standing
    rw [if_neg hdirectory]
    refine .last h rfl ?_ fun target htarget => ?_
    · rw [Ne, ← hways.directory, hnode]
      exact hdirectory
    · exact hlink target (hnode.symm.trans ((hways.link _ _).mpr htarget))

/-- **A path leads to the same place** in file systems with the same ways. -/
theorem resolve (hways : SameWays fs fs') (h : fs.resolve purpose path = .ok (place, found)) :
    fs'.resolve purpose path = .ok (place, standing fs' place found) := by
  unfold FileSystem.resolve at h ⊢
  split at h
  · cases h
  · rename_i hempty
    rw [if_neg hempty]
    split at h
    · cases h
    · rename_i hnul
      rw [if_neg hnul]
      split at h
      · cases h
      · rename_i hlong
        rw [if_neg hlong]
        exact walk_eq_ok_iff.mpr (hways.leads (walk_eq_ok_iff.mp h))

/-- Where a path leads to no directory, it finds what stands at the place. -/
theorem resolve_node (hways : SameWays fs fs') (h : fs.resolve purpose path = .ok (place, found))
    (hdirectory : found ≠ some .directory) :
    fs'.resolve purpose path = .ok (place, fs'.node? place) := by
  rw [hways.resolve h, standing, if_neg hdirectory]

end SameWays

/-! ## Whole paths -/

/-- **A plain name**: a path of one step from the working directory, whatever it is
for. -/
structure Plain (name : String) : Prop where
  /-- It is one step. -/
  steps : Path.steps name = [name]
  /-- It does not start at the root. -/
  relative : Path.isAbsolute name = false
  /-- The step leads somewhere. -/
  moves : ¬ Path.stays name = true
  /-- It does not lead up. -/
  down : name ≠ ".."
  /-- It has no character that ends a path. -/
  nul : '\x00' ∉ name.toList
  /-- It is not too long, neither as a name nor as a path. -/
  short : ¬ maxName < name.utf8ByteSize ∧ ¬ maxPath < name.utf8ByteSize

instance (name : String) : Decidable (Plain name) :=
  decidable_of_iff (Path.steps name = [name] ∧ Path.isAbsolute name = false
      ∧ ¬ Path.stays name = true ∧ name ≠ ".." ∧ '\x00' ∉ name.toList
      ∧ ¬ maxName < name.utf8ByteSize ∧ ¬ maxPath < name.utf8ByteSize)
    ⟨fun ⟨steps, relative, moves, down, nul, short⟩ =>
        ⟨steps, relative, moves, down, nul, short⟩,
      fun ⟨steps, relative, moves, down, nul, short⟩ =>
        ⟨steps, relative, moves, down, nul, short⟩⟩

/-- **A plain name** leads to what stands under it in the working directory. -/
theorem Plain.resolve (h : Plain name) (purpose : Purpose)
    (hnode : fs.node? (workingDirectory ++ [name]) = found) (hdirectory : found ≠ some .directory)
    (hlink : ∀ target, found ≠ some (.link target)) :
    fs.resolve purpose name = .ok (workingDirectory ++ [name], found) := by
  have hempty : name ≠ "" := by
    rintro rfl
    exact h.moves rfl
  have hlookedUp : LookedUp purpose name [] := ⟨h.moves, h.down, nofun, h.short.1⟩
  unfold FileSystem.resolve
  rw [if_neg hempty, if_neg h.nul, if_neg h.short.2, h.relative, h.steps]
  exact (Leads.last hlookedUp hnode hdirectory fun target htarget =>
    absurd htarget (hlink target)).walk_eq

/-- What a path is found to lead to stands there, unless it is a directory. -/
theorem node?_of_resolve (h : fs.resolve purpose path = .ok (place, found))
    (hfound : found ≠ some .directory) : fs.node? place = found := by
  unfold resolve at h
  split at h
  · cases h
  · split at h
    · cases h
    · split at h
      · cases h
      · exact (walk_eq_ok_iff.mp h).node?_eq hfound

/-- A place where no directory is found is not the root. -/
theorem ne_root_of_resolve (h : fs.resolve purpose path = .ok (place, found))
    (hfound : found ≠ some .directory) : place ≠ [] := by
  rintro rfl
  have hroot : fs.node? [] = some .directory := if_pos rfl
  exact hfound ((node?_of_resolve h hfound).symm.trans hroot)

/-- **Where a file can be created, the path leads for reading.** -/
theorem locate_of_resolve (h : fs.resolve .creation path = .ok (place, found)) :
    fs.locate path = .ok (place, found) := by
  unfold locate resolve at *
  split at h
  · cases h
  · rename_i hempty
    rw [if_neg hempty]
    split at h
    · cases h
    · rename_i hnul
      rw [if_neg hnul]
      split at h
      · cases h
      · rename_i hlong
        rw [if_neg hlong]
        exact walk_eq_ok_iff.mpr (walk_eq_ok_iff.mp h).target

end Enclave.FileSystem
