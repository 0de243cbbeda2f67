import Enclave.Storage.Path
import Enclave.Storage.Transfer

/-!
# A file system

The files a run can see: regular files, directories, symbolic links, named
pipes and three devices, each under the names that lead to it from the root.
A path is resolved step by step (`walk`); links are followed, and whatever is
missing or in the way is reported the way an operating system reports it.

Reading and writing go through `Transfer`, so that what a pipe delivers piece
by piece and what a file delivers at once come out the same. A pipe with
nobody at its other end stalls the transfer; who waits there is kept with the
pipe, so that a transfer can be given up and completed by a later one.
-/

namespace Enclave

/-- **The transfers that wait at a pipe.** -/
structure Pipe where
  /-- What each waiting writer has to deliver, piece by piece. -/
  writers : List (List Bytes) := []
  /-- How many readers wait. -/
  readers : Nat := 0
deriving DecidableEq, Repr

/-- **The devices**: one that forgets, one that takes nothing, and one that
delivers zeros. -/
inductive Device where
  | null
  | full
  | zero
deriving DecidableEq, Repr

/-- **What a name can stand for.** -/
inductive Node where
  | file (content : Bytes)
  | directory
  | link (target : String)
  | pipe (state : Pipe)
  | device (kind : Device)
deriving DecidableEq, Repr

/-- **A file system**: what stands under each list of names from the root. -/
structure FileSystem where
  /-- The entries, in the order of their creation. -/
  entries : List (List String × Node)
deriving DecidableEq, Repr

/-- **How a transfer ends**, if it does: a stalled one waits for somebody at
the other end of a pipe. -/
inductive Outcome (α : Type) where
  | finished (result : Except IoError α)
  | stalled

namespace FileSystem

/-- The directory that relative paths start in. -/
def workingDirectory : List String := ["work"]

/-- **The file system before anything is put there**: an empty working
directory, and the devices. -/
def initial : FileSystem :=
  ⟨[(["dev"], .directory), (["dev", "null"], .device .null), (["dev", "full"], .device .full),
    (["dev", "zero"], .device .zero), (workingDirectory, .directory)]⟩

/-- What stands under a list of names. The root is always a directory. -/
def node? (fs : FileSystem) (place : List String) : Option Node :=
  if place = [] then some .directory else fs.entries.lookup place

/-- **The file system with a node under a list of names**, in place of what was
there before. -/
def put (fs : FileSystem) (place : List String) (node : Node) : FileSystem :=
  if fs.entries.any (·.1 = place) then
    ⟨fs.entries.map fun e => if e.1 = place then (place, node) else e⟩
  else ⟨fs.entries ++ [(place, node)]⟩

/-- The file system without what stands under a list of names, and below it. -/
def erase (fs : FileSystem) (place : List String) : FileSystem :=
  ⟨fs.entries.filter fun e => !place.isPrefixOf e.1⟩

/-- How many links a path may lead through. -/
def maxLinks : Nat := 40

/-- How many bytes a name may have. -/
def maxName : Nat := 255

/-- How many bytes a path may have. -/
def maxPath : Nat := 4095

/-- **What a path is followed for**: what it leads to in the end, what its last
name itself stands for, or a file that is created if it is missing. -/
inductive Purpose where
  | target
  | entry
  | creation
deriving DecidableEq, Repr

/-- **Following steps from a directory.** The result is the place they lead
to, with what stands there; only the last step may lead to nothing. A link is
followed, unless it is the last step and the entry itself is wanted. A file is
not created under a name that ends with a slash. -/
def walk (fs : FileSystem) (purpose : Purpose) :
    (links : Nat) → (here steps : List String) → Except IoError (List String × Option Node)
  | _, here, [] => .ok (here, some .directory)
  | links, here, name :: rest =>
    if Path.stays name then walk fs purpose links here rest
    else if name = ".." then walk fs purpose links here.dropLast rest
    else if purpose = .creation ∧ rest = [""] then .error .directory
    else if maxName < name.utf8ByteSize then .error .nameTooLong
    else
      let place := here ++ [name]
      match fs.node? place with
      | none => if rest = [] then .ok (place, none) else .error .missing
      | some .directory => walk fs purpose links place rest
      | some (.link target) =>
        if rest = [] ∧ purpose = .entry then .ok (place, some (.link target))
        else
          match links with
          | 0 => .error .linkLoop
          | k + 1 =>
            walk fs purpose k (if Path.isAbsolute target then [] else here)
              (Path.steps target ++ rest)
      | some node => if rest = [] then .ok (place, some node) else .error .notDirectory
termination_by links _ steps => (links, steps.length)

/-- **Where a path leads**, with what stands there. The empty path leads
nowhere. -/
def resolve (fs : FileSystem) (purpose : Purpose) (path : String) :
    Except IoError (List String × Option Node) :=
  if path = "" then .error .missing
  else if '\x00' ∈ path.toList then .error .nulInPath
  else if maxPath < path.utf8ByteSize then .error .nameTooLong
  else
    let start := if Path.isAbsolute path then [] else workingDirectory
    fs.walk purpose maxLinks start (Path.steps path)

/-- **The place a path leads to** in the end, with what stands there. -/
def locate (fs : FileSystem) (path : String) : Except IoError (List String × Option Node) :=
  fs.resolve .target path

/-- **Whether a path leads to a regular file.** -/
def isFile (fs : FileSystem) (path : String) : Bool :=
  match fs.locate path with
  | .ok (_, some (.file _)) => true
  | _ => false

/-- What the calls on an open file deliver to a reader with room for a number
of bytes, or nothing at all when they stall. -/
def deliveries (node : Node) (room : Nat) : Option (List (Except IoError Bytes)) :=
  match node with
  | .file content => some [.ok content]
  | .directory | .link _ => some [.error .directory]
  | .device .null => some [.ok []]
  | .device _ => some [.ok (List.replicate room 0)]
  | .pipe ⟨[], _⟩ => none
  | .pipe ⟨writers, _⟩ => some (writers.flatten.filter (· ≠ []) |>.map .ok)

/-- **Reading a file up to a number of bytes.** Who reads from a pipe lets the
writers that wait there finish; if none does, the reader waits. -/
def read (fs : FileSystem) (path : String) (room : Nat) : Outcome Bytes × FileSystem :=
  match fs.locate path with
  | .error e => (.finished (.error e), fs)
  | .ok (_, none) => (.finished (.error .missing), fs)
  | .ok (place, some node) =>
    match deliveries node room, node with
    | some answers, .pipe p =>
      (.finished (Transfer.collect room answers), fs.put place (.pipe { p with writers := [] }))
    | some answers, _ => (.finished (Transfer.collect room answers), fs)
    | none, .pipe p => (.stalled, fs.put place (.pipe { p with readers := p.readers + 1 }))
    | none, _ => (.stalled, fs)

/-- **Reading the whole of a file.** -/
def readAll (fs : FileSystem) (path : String) : Outcome Bytes × FileSystem :=
  let size := match fs.locate path with
    | .ok (_, some (.file content)) => content.length
    | .ok (_, some (.pipe p)) => p.writers.flatten.flatten.length
    | _ => 1
  fs.read path size

/-- A content with new bytes over its beginning. -/
def overwritten (old new : Bytes) : Bytes := new ++ old.drop new.length

/-- **Writing over the beginning of a file** that exists already. The rest of a
longer file stays. Who writes to a pipe lets the readers that wait there
finish; if none does, the writer waits. -/
def write (fs : FileSystem) (path : String) (b : Bytes) : Outcome Nat × FileSystem :=
  match fs.locate path with
  | .error e => (.finished (.error e), fs)
  | .ok (_, none) => (.finished (.error .missing), fs)
  | .ok (place, some node) =>
    match node with
    | .file old =>
      let result := Transfer.pour b.length [.ok b.length]
      (.finished result, fs.put place (.file (overwritten old b)))
    | .directory | .link _ => (.finished (.error .directory), fs)
    | .device .full => (.finished (Transfer.pour b.length [.error .full]), fs)
    | .device _ => (.finished (Transfer.pour b.length [.ok b.length]), fs)
    | .pipe p =>
      if p.readers = 0 then
        (.stalled, fs.put place (.pipe { p with writers := p.writers ++ [[b]] }))
      else
        (.finished (Transfer.pour b.length [.ok b.length]),
          fs.put place (.pipe { p with readers := 0 }))

/-- **Replacing the content of a file**, which is created if nothing stands
there yet. -/
def replace (fs : FileSystem) (path : String) (b : Bytes) : Outcome Unit × FileSystem :=
  match fs.resolve .creation path with
  | .error e => (.finished (.error e), fs)
  | .ok (place, none) => (.finished (.ok ()), fs.put place (.file b))
  | .ok (place, some (.file _)) => (.finished (.ok ()), fs.put place (.file b))
  | .ok (_, some _) =>
    match fs.write path b with
    | (.finished result, fs') => (.finished (result.map fun _ => ()), fs')
    | (.stalled, fs') => (.stalled, fs')

/-- **Removing what stands under a path**, the link itself if it is one. -/
def remove (fs : FileSystem) (path : String) : Except IoError Unit × FileSystem :=
  match fs.resolve .entry path with
  | .error e => (.error e, fs)
  | .ok (_, none) => (.error .missing, fs)
  | .ok (place, some _) => (.ok (), fs.erase place)

/-- The directory that names lead to, created if it is missing. -/
def makeDirectory (fs : FileSystem) (start names : List String) : FileSystem :=
  match fs.walk .target maxLinks start names with
  | .ok (place, none) => fs.put place .directory
  | _ => fs

/-- The directories on the way along some names, created where they are
missing. -/
def makeDirectories (fs : FileSystem) (start names : List String) : FileSystem :=
  (List.range names.length).foldl (fun fs k => fs.makeDirectory start (names.take (k + 1))) fs

/-- **A node put under a path**, with the directories that lead there. A
regular file goes where links lead; anything else takes the name itself. -/
def install (fs : FileSystem) (path : String) (node : Node) : FileSystem :=
  let start := if Path.isAbsolute path then [] else workingDirectory
  let names := Path.names path
  let fs' := fs.makeDirectories start names.dropLast
  match node with
  | .file content => (fs'.replace path content).2
  | node =>
    match fs'.walk .entry maxLinks start names with
    | .ok (place, none) => fs'.put place node
    | _ => fs'

/-- What becomes of the pipe a path leads to, if it leads to one. -/
def atPipe {α : Type} (fs : FileSystem) (path : String) (f : Pipe → α × Pipe) :
    Option α × FileSystem :=
  match fs.locate path with
  | .ok (place, some (.pipe p)) =>
    let (answer, p') := f p
    (some answer, fs.put place (.pipe p'))
  | _ => (none, fs)

end FileSystem

/-- **A writer comes to a pipe.** Readers that wait take what it has; if none
does, it waits. -/
def Pipe.feed (chunks : List Bytes) (p : Pipe) : Unit × Pipe :=
  ((), if p.readers = 0 then { p with writers := p.writers ++ [chunks] } else { p with readers := 0 })

/-- **A reader drains a pipe**: the writers that wait all finish. -/
def Pipe.drain (p : Pipe) : Bytes × Pipe :=
  (p.writers.flatten.flatten, { p with writers := [] })

/-- **The writing end is opened and closed**: readers that wait see the end. -/
def Pipe.close (p : Pipe) : Unit × Pipe := ((), { p with readers := 0 })

end Enclave
