import Enclave.Toml.Lexical
import Enclave.Toml.Number
import Enclave.Toml.Table

/-!
# Reading a settings file

A document is a sequence of lines: assignments of values to keys, and headers
that say which table the following assignments are for. Everything that goes
wrong makes the whole document unreadable, so that the reader answers with the
object the document stands for or with nothing.
-/

namespace Enclave.Toml

mutual

/-- **A value**, with room for containers inside it. -/
def value : (fuel depth : Nat) → List Char → Option (Json × List Char)
  | 0, _, _ => none
  | fuel + 1, depth, cs =>
    match cs with
    | '[' :: rest => if depth = 0 then none else items fuel (depth - 1) [] rest
    | '{' :: rest =>
      if depth = 0 then none
      else
        match skipBlank rest with
        | '}' :: rest => some (.object [], rest)
        | rest => pairs fuel (depth - 1) [] rest
    | c :: _ =>
      if c = '"' || c = '\'' then (quotedText cs).map fun (s, rest) => (.string s, rest)
      else word cs
    | [] => none

/-- The items of an array, up to its closing bracket. A comma may follow the
last one. -/
def items : (fuel depth : Nat) → List Json → List Char → Option (Json × List Char)
  | 0, _, _, _ => none
  | fuel + 1, depth, acc, cs =>
    match skipNotes cs.length cs with
    | ']' :: rest => some (.array acc.reverse, rest)
    | cs =>
      match value fuel depth cs with
      | none => none
      | some (j, rest) =>
        match skipNotes rest.length rest with
        | ',' :: rest => items fuel depth (j :: acc) rest
        | ']' :: rest => some (.array (j :: acc).reverse, rest)
        | _ => none

/-- The assignments of a table on one line, up to its closing brace. -/
def pairs : (fuel depth : Nat) → Table → List Char → Option (Json × List Char)
  | 0, _, _, _ => none
  | fuel + 1, depth, t, cs =>
    match assignment fuel depth cs with
    | none => none
    | some (names, j, rest) =>
      match assign j names t with
      | none => none
      | some t =>
        match skipBlank rest with
        | ',' :: rest => pairs fuel depth t rest
        | '}' :: rest => some (.object (members t), rest)
        | _ => none

/-- **An assignment**: a key, the sign, and a value. -/
def assignment :
    (fuel depth : Nat) → List Char → Option (List String × Json × List Char)
  | 0, _, _ => none
  | fuel + 1, depth, cs =>
    match key maxDepth cs with
    | some (names, '=' :: rest) =>
      (value fuel depth (skipBlank rest)).map fun (j, rest) => (names, j, rest)
    | _ => none

end

/-- **A header**, from behind its opening brackets: the names in it, and what
is left of the document after its line. -/
def header (closing : List Char) (cs : List Char) : Option (List String × List Char) :=
  match key maxDepth cs with
  | some (names, rest) =>
    if closing.isPrefixOf rest then (restOfLine (rest.drop closing.length)).map (names, ·)
    else none
  | none => none

/-- **The lines of a document**, read into its tables. Assignments are for the
table that `current` leads to. -/
def lines : (fuel : Nat) → (current : List String) → Table → List Char → Option Table
  | 0, _, _, _ => none
  | fuel + 1, current, root, cs =>
    match skipBlank cs with
    | [] => some root
    | '[' :: '[' :: rest => do
      let (names, rest) ← header [']', ']'] rest
      let root ← openItem names.dropLast (names.getLastD "") root
      lines fuel names root rest
    | '[' :: rest => do
      let (names, rest) ← header [']'] rest
      let root ← openTable names.dropLast (names.getLastD "") root
      lines fuel names root rest
    | c :: rest =>
      match restOfLine (c :: rest) with
      | some rest => lines fuel current root rest
      | none => do
        let (names, j, rest) ← assignment (2 * rest.length + 4) maxDepth (c :: rest)
        let root ← within (assign j names) current root
        lines fuel current root (← restOfLine rest)

/-- **The object a document stands for**, if it is well formed. A byte order
mark in front says nothing. -/
def parse? (s : String) : Option Json :=
  let cs :=
    match s.toList with
    | '\ufeff' :: rest => rest
    | cs => cs
  (lines (cs.length + 1) [] [] cs).map fun root => .object (members root)

end Enclave.Toml
