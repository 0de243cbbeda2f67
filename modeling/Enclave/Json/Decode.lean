import Enclave.Json.Printer
import Enclave.Measurement

/-!
# Taking values out of JSON

What a reader of JSON values expects, and how it says that it found something
else. A fault names what was found and what was expected in its place; text is
shown in quotes, numbers and truth values as they are, and containers only by
their kind.
-/

namespace Enclave

/-- **Why a JSON value is not what it should be.** -/
inductive DecodeFault where
  /-- The value is of another kind. -/
  | wrongType (found : Json) (expected : String)
  /-- The value is of the right kind but cannot be used. -/
  | wrongValue (found : Json) (expected : String)
  /-- A name is none of those there are. -/
  | unknownVariant (name : String) (known : List String)
  /-- An array has more items than there are places. -/
  | tooManyItems (size : Nat)
  /-- Text that should be hexadecimal is not. -/
  | badHex (cause : HexError)
deriving Repr

namespace Json

/-- **A value as faults show it.** -/
def describe : Json → String
  | .null => "null"
  | .bool b => "boolean `" ++ (if b then "true" else "false") ++ "`"
  | .integer n => "integer `" ++ toString n ++ "`"
  | .decimal d => "floating point `" ++ d.toText ++ "`"
  | .string s => "string " ++ Text.quoted s
  | .array _ => "sequence"
  | .object _ => "map"

end Json

namespace DecodeFault

/-- **The wording of a fault.** -/
def message : DecodeFault → String
  | wrongType found expected => s!"invalid type: {found.describe}, expected {expected}"
  | wrongValue found expected => s!"invalid value: {found.describe}, expected {expected}"
  | unknownVariant name known =>
    let names := ", ".intercalate (known.map fun k => s!"`{k}`")
    s!"unknown variant `{name}`, expected one of {names}"
  | tooManyItems size => s!"invalid length {size}, expected fewer elements in array"
  | badHex cause => cause.message

end DecodeFault

namespace Json

/-- A truth value. -/
def toBool : Json → Except DecodeFault Bool
  | .bool b => .ok b
  | j => .error (.wrongType j "a boolean")

/-- A text, by what it is for. -/
def toText (expected : String) : Json → Except DecodeFault String
  | .string s => .ok s
  | j => .error (.wrongType j expected)

/-- A natural number below `2^64`, by what it is for. -/
def toUInt64 (expected : String) : Json → Except DecodeFault UInt64
  | .integer n => if n < 0 then .error (.wrongValue (.integer n) expected) else .ok (.ofNat n.toNat)
  | j => .error (.wrongType j expected)

/-- **A measurement**, as its hexadecimal text. -/
def toMeasurement (j : Json) : Except DecodeFault Measurement := do
  let s ← j.toText "a string"
  (Measurement.ofText s).mapError .badHex

end Json

end Enclave
