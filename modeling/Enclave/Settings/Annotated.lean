import Enclave.Json.Basic

/-!
# Annotated values

In a settings file, a table can stand for a single value: it holds the value
under one reserved name and perhaps, under another, a number that says where
the value came from. Such a table means the value alone, wherever it stands
below the names of the settings.
-/

namespace Enclave.Annotated

/-- The reserved name of the number that says where a value came from. -/
def originName : String := "___figment_value_id"

/-- The reserved name of the value itself. -/
def valueName : String := "___figment_value_value"

mutual

/-- **The value that is meant**, if every origin in it is a number. -/
def value? : Json → Option Json
  | .array items => (items? items).map .array
  | .object members => do
    let inner ← members? members
    if (members.lookup originName).any (·.integer?.isNone) then none
    else
      match inner.lookup valueName with
      | some value => some value
      | none => some (.object (inner.filter (·.1 ≠ originName)))
  | j => some j

/-- The values that the items of an array mean. -/
def items? : List Json → Option (List Json)
  | [] => some []
  | j :: rest => do return (← value? j) :: (← items? rest)

/-- The values that the members of an object mean, each under its name. -/
def members? : List (String × Json) → Option (List (String × Json))
  | [] => some []
  | (name, j) :: rest => do return (name, ← value? j) :: (← members? rest)

end

end Enclave.Annotated
