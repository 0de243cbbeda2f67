import Enclave.Data.Decimal

/-!
# JSON values

The values that settings are read from and responses are written as. An object
keeps its members in the order they were given, since which of several faults in an
object is reported depends on it. Names are distinct: a name that is given
again replaces the value and keeps the place.

A number is an integer when it is written as one and fits 64 bits; every other
number is a decimal.
-/

namespace Enclave

/-- **A JSON value.** -/
inductive Json where
  | null
  | bool (b : Bool)
  | integer (n : Int)
  | decimal (d : Decimal)
  | string (s : String)
  | array (items : List Json)
  | object (members : List (String × Json))
deriving Repr, Inhabited

namespace Json

/-- The value of the member with a name, if the value is an object that has
one. -/
def get? (j : Json) (name : String) : Option Json :=
  match j with
  | .object members => members.lookup name
  | _ => none

/-- **Members with one more**, or with a new value for a name they have. -/
def putMember (members : List (String × Json)) (name : String) (value : Json) :
    List (String × Json) :=
  match members with
  | [] => [(name, value)]
  | (n, v) :: rest =>
    if n = name then (name, value) :: rest else (n, v) :: putMember rest name value

/-- The text in a value that is one. -/
def string? : Json → Option String
  | .string s => some s
  | _ => none

/-- The truth value in a value that is one. -/
def bool? : Json → Option Bool
  | .bool b => some b
  | _ => none

/-- The integer in a value that is one. -/
def integer? : Json → Option Int
  | .integer n => some n
  | _ => none

/-- The items of a value that is an array. -/
def items? : Json → Option (List Json)
  | .array items => some items
  | _ => none

/-- The members of a value that is an object. -/
def members? : Json → Option (List (String × Json))
  | .object members => some members
  | _ => none

end Json

end Enclave
