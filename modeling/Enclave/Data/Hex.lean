import Enclave.Data.Bytes
import Enclave.Text.Quoted

/-!
# Hexadecimal text

Byte strings as text, two digits to a byte. Writing uses lower case; reading
takes either case and names the first thing that is wrong with the text. An
odd length is found before any digit is looked at, then digits are read from
the left, and whether the bytes have the size a field asks for is decided
last.
-/

namespace Enclave

/-- **What can be wrong with hexadecimal text.** -/
inductive HexError where
  /-- The text has an odd number of bytes, so its last digit has no partner. -/
  | oddLength
  /-- The byte at this position is not a digit. -/
  | invalidDigit (byte : UInt8) (position : Nat)
  /-- The digits are fine, but are not as many as the field holds. -/
  | wrongLength
deriving DecidableEq, Repr

/-- The wording of an error. A byte is shown as the character of its number. -/
def HexError.message : HexError → String
  | oddLength => "Odd number of digits"
  | invalidDigit byte position =>
    "Invalid character " ++ Text.quotedChar (Char.ofNat byte.toNat) ++ " at position "
      ++ toString position
  | wrongLength => "Invalid string length"

namespace Hex

/-- The digit of a value below 16. -/
def digit (n : Nat) : Char :=
  Char.ofNat (if n < 10 then 0x30 + n else 0x61 + (n - 10))

/-- **The value of a digit** of either case, given as a byte of text. -/
def value? (byte : UInt8) : Option UInt8 :=
  if 0x30 ≤ byte && byte ≤ 0x39 then some (byte - 0x30)
  else if 0x61 ≤ byte && byte ≤ 0x66 then some (byte - 0x61 + 10)
  else if 0x41 ≤ byte && byte ≤ 0x46 then some (byte - 0x41 + 10)
  else none

/-- The two digits of a byte, in lower case. -/
def encodeByte (b : UInt8) : List Char :=
  [digit (b.toNat / 16), digit (b.toNat % 16)]

/-- **The hexadecimal text of a byte string**, in lower case. -/
def encode (b : Bytes) : String :=
  String.ofList (b.flatMap encodeByte)

/-- The value of the digit at a position. -/
def digitAt (byte : UInt8) (position : Nat) : Except HexError UInt8 :=
  match value? byte with
  | some v => .ok v
  | none => .error (.invalidDigit byte position)

/-- **Digits read in pairs from the left**, where the first one stands at the
given position. -/
def decodePairs (position : Nat) : Bytes → Except HexError Bytes
  | high :: low :: rest => do
    let h ← digitAt high position
    let l ← digitAt low (position + 1)
    let bytes ← decodePairs (position + 2) rest
    return (h * 16 + l) :: bytes
  | _ => return []

/-- **The byte string a text stands for.** Lengths and positions count the
bytes of the text in UTF-8. -/
def decode (s : String) : Except HexError Bytes :=
  let text := Bytes.ofText s
  if text.length % 2 = 1 then .error .oddLength else decodePairs 0 text

/-- **The field of `n` bytes a text stands for.** -/
def decodeField (n : Nat) (s : String) : Except HexError (Vector UInt8 n) := do
  let bytes ← decode s
  if bytes.length = n then return Bytes.window n 0 bytes else throw .wrongLength

end Hex

end Enclave
