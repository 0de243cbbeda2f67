import Enclave.Data.Bytes
import Enclave.Text.Basic

/-!
# Paths

A path is text: names with slashes between them. Repeated slashes say nothing;
a slash in front starts at the root. The name `.` and a slash behind stay where
they are, and so ask for a directory. The name `..` is kept, since where it
leads depends on what the names before it stand for.
-/

namespace Enclave.Path

/-- The pieces of a path between slashes, empty ones included. -/
def pieces (path : String) : List (List Char) := Text.pieces '/' path.toList

/-- **The steps along a path**: its names in order, and an empty one at the end
if it ends with a slash. -/
def steps (path : String) : List String :=
  let all := (pieces path).map String.ofList
  all.dropLast.filter (· ≠ "") ++ all.drop (all.length - 1)

/-- Whether a step stays where it is. -/
def stays (step : String) : Bool := step = "" || step = "."

/-- **The names in a path** that lead somewhere. -/
def names (path : String) : List String := (steps path).filter (!stays ·)

/-- Whether a path starts at the root. -/
def isAbsolute (path : String) : Bool :=
  path.toList.head? = some '/'

/-- **A name below a path.** A slash goes between them unless the path ends
with one or is empty. -/
def join (path name : String) : String :=
  if path = "" || path.toList.getLast? = some '/' then path ++ name else path ++ "/" ++ name

/-- **A path in comparable form**: whether it starts at the root, and its
names. Two texts that differ only in what says nothing are the same path; a
`.` in front of everything does say something. -/
def normal (path : String) : Bool × List String :=
  let here := if (pieces path).head? = some ['.'] then ["."] else []
  (isAbsolute path, here ++ names path)

/-- **A name in a directory or in one of those above it**, the nearest first. A
path that starts at the root is only itself. -/
def upwards (directory name : String) : List String :=
  if isAbsolute name then [name]
  else
    let above := names directory
    (List.range (above.length + 1)).map fun k =>
      join ("/" ++ "/".intercalate (above.take (above.length - k))) name

end Enclave.Path
