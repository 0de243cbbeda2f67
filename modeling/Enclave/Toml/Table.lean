import Enclave.Json.Basic

/-!
# Building the tables of a document

A document names its tables in any order: by headers, by the dots in a key,
and by being on the way to either. What has been named one way may be named
again only in certain others, so a table under construction remembers how it
came about. Every step answers `none` when it would define something twice or
look for a table where a value is.
-/

namespace Enclave.Toml

/-- **How a table came about.** -/
inductive TableKind where
  /-- On the way to a table with a header. -/
  | implied
  /-- By the dots in a key. -/
  | dotted
  /-- By a header of its own. -/
  | defined
deriving DecidableEq, Repr

/-- **What stands under a key** of a document under construction. -/
inductive Entry where
  /-- A value, which is complete. -/
  | value (j : Json)
  /-- A table, which may still grow. -/
  | table (kind : TableKind) (entries : List (String × Entry))
  /-- An array of tables, of which the last may still grow. -/
  | tables (items : List (List (String × Entry)))

/-- **A table under construction.** -/
abbrev Table := List (String × Entry)

/-- The table with another entry under a name, made from the one it has. -/
def change (name : String) (f : Option Entry → Option Entry) : Table → Option Table
  | [] => (f none).map fun e => [(name, e)]
  | (n, e) :: rest =>
    if n = name then (f (some e)).map fun e' => (n, e') :: rest
    else (change name f rest).map ((n, e) :: ·)

/-- A change inside the last of several tables. -/
def changeLast (f : Table → Option Table) : List Table → Option (List Table)
  | [] => none
  | [t] => (f t).map fun t' => [t']
  | t :: rest => (changeLast f rest).map (t :: ·)

/-- **A change inside the table that the names of a header lead to.** Tables on
the way that do not exist yet are implied. -/
def within (f : Table → Option Table) : List String → Table → Option Table
  | [], t => f t
  | name :: rest, t =>
    change name (fun
      | none => (within f rest []).map (.table .implied)
      | some (.value _) => none
      | some (.table kind entries) => (within f rest entries).map (.table kind)
      | some (.tables items) => (changeLast (within f rest) items).map .tables) t

/-- **A table opened by its header.** One that was only implied so far is
defined by it. -/
def openTable (path : List String) (name : String) : Table → Option Table :=
  within (change name fun
    | none => some (.table .defined [])
    | some (.table .implied entries) => some (.table .defined entries)
    | some _ => none) path

/-- **One more table of an array** opened by its header. -/
def openItem (path : List String) (name : String) : Table → Option Table :=
  within (change name fun
    | none => some (.tables [[]])
    | some (.tables items) => some (.tables (items ++ [[]]))
    | some _ => none) path

/-- **A value put under the names of a key.** The dots of a key do not lead into
a table that a header defined, and the last of them leads only into a table
that dots brought about. -/
def assign (j : Json) : List String → Table → Option Table
  | [], _ => none
  | [name], t =>
    change name (fun
      | none => some (.value j)
      | some _ => none) t
  | name :: rest, t =>
    change name (fun
      | none => (assign j rest []).map (.table .dotted)
      | some (.value _) => none
      | some (.table kind entries) =>
        if kind = .dotted || (kind = .implied && rest.length ≠ 1) then
          (assign j rest entries).map (.table kind)
        else none
      | some (.tables items) =>
        if rest.length = 1 then none else (changeLast (assign j rest) items).map .tables) t

mutual

/-- **The value of an entry** once the document is complete. -/
def Entry.toJson : Entry → Json
  | .value j => j
  | .table _ entries => .object (members entries)
  | .tables items => .array (objects items)

/-- The members of the object that a table becomes. -/
def members : List (String × Entry) → List (String × Json)
  | [] => []
  | (name, e) :: rest => (name, e.toJson) :: members rest

/-- The objects that an array of tables becomes. -/
def objects : List (List (String × Entry)) → List Json
  | [] => []
  | t :: rest => .object (members t) :: objects rest

end

end Enclave.Toml
