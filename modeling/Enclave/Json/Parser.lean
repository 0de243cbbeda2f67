import Enclave.Json.Basic

/-!
# Reading JSON

A reader for the whole of JSON text. Each part takes characters off the front
of what is left and answers with the rest. Reading stops for want of fuel only
on texts longer than the fuel, and the fuel is taken from the length of the
text.
-/

namespace Enclave.Json.Parser

/-- What is left after blanks. -/
def skipBlank (cs : List Char) : List Char :=
  cs.dropWhile fun c => c = ' ' || c = '\t' || c = '\n' || c = '\r'

/-- The value of a hexadecimal digit. -/
def hexValue? (c : Char) : Option Nat :=
  if '0' ≤ c && c ≤ '9' then some (c.toNat - 0x30)
  else if 'a' ≤ c && c ≤ 'f' then some (c.toNat - 0x61 + 10)
  else if 'A' ≤ c && c ≤ 'F' then some (c.toNat - 0x41 + 10)
  else none

/-- The code unit that four hexadecimal digits stand for. -/
def codeUnit? (a b c d : Char) : Option Nat := do
  let a ← hexValue? a
  let b ← hexValue? b
  let c ← hexValue? c
  let d ← hexValue? d
  return ((a * 16 + b) * 16 + c) * 16 + d

/-- The character behind a backslash that stands for itself or for a control. -/
def shortEscape? : Char → Option Char
  | '"' => some '"'
  | '\\' => some '\\'
  | '/' => some '/'
  | 'b' => some '\x08'
  | 'f' => some '\x0c'
  | 'n' => some '\n'
  | 'r' => some '\r'
  | 't' => some '\t'
  | _ => none

/-- **A text, from behind its opening mark.** A character above the basic plane
may be written as two code units. -/
def text (acc : List Char) : List Char → Option (String × List Char)
  | '"' :: rest => some (String.ofList acc.reverse, rest)
  | '\\' :: 'u' :: a :: b :: c :: d :: rest =>
    match codeUnit? a b c d with
    | none => none
    | some unit =>
      if 0xd800 ≤ unit && unit < 0xdc00 then
        match rest with
        | '\\' :: 'u' :: e :: f :: g :: h :: rest' =>
          match codeUnit? e f g h with
          | none => none
          | some low =>
            if 0xdc00 ≤ low && low < 0xe000 then
              text (Char.ofNat (0x10000 + (unit - 0xd800) * 0x400 + (low - 0xdc00)) :: acc) rest'
            else none
        | _ => none
      else if 0xdc00 ≤ unit && unit < 0xe000 then none
      else text (Char.ofNat unit :: acc) rest
  | '\\' :: c :: rest =>
    match shortEscape? c with
    | some c' => text (c' :: acc) rest
    | none => none
  | c :: rest => if c.toNat < 0x20 then none else text (c :: acc) rest
  | [] => none

/-- The number that decimal digits stand for. -/
def ofDigits (ds : List Char) : Nat :=
  ds.foldl (fun n d => 10 * n + Decimal.digitValue d) 0

/-- A decimal, unless it is too large for a double-precision value. -/
def decimal? (d : Decimal) : Option Json := d.toDouble?.map fun _ => .decimal d

/-- **The number a literal stands for**, if it is well formed and not too
large. -/
def ofLiteral? (literal : List Char) : Option Json :=
  let negative := literal.head? = some '-'
  let body := if negative then literal.drop 1 else literal
  let whole := body.takeWhile Char.isDigit
  let body := body.dropWhile Char.isDigit
  if whole = [] || (whole.length > 1 && whole.head? = some '0') then none
  else
    let hasFraction := body.head? = some '.'
    let fraction := if hasFraction then (body.drop 1).takeWhile Char.isDigit else []
    let body := if hasFraction then (body.drop 1).dropWhile Char.isDigit else body
    if hasFraction && fraction = [] then none
    else
      match body with
      | [] =>
        let n := ofDigits whole
        if !hasFraction && !negative && n < UInt64.size then some (.integer n)
        else if !hasFraction && negative && n ≠ 0 && n ≤ UInt64.size / 2 then
          some (.integer (-(n : Int)))
        else decimal? (.ofDigits negative whole fraction 0)
      | e :: power =>
        let down := power.head? = some '-'
        let digits := if down || power.head? = some '+' then power.drop 1 else power
        if (e = 'e' || e = 'E') && digits ≠ [] && digits.all Char.isDigit then
          let shift : Int := if down then -(ofDigits digits : Int) else ofDigits digits
          decimal? (.ofDigits negative whole fraction shift)
        else none

/-- Whether a character can be part of a number. -/
def isNumberChar (c : Char) : Bool :=
  c.isDigit || c = '-' || c = '+' || c = '.' || c = 'e' || c = 'E'

mutual

/-- **A value.** -/
def value : Nat → List Char → Option (Json × List Char)
  | 0, _ => none
  | fuel + 1, cs =>
    match skipBlank cs with
    | '{' :: rest =>
      match skipBlank rest with
      | '}' :: rest => some (.object [], rest)
      | rest => members fuel [] rest
    | '[' :: rest =>
      match skipBlank rest with
      | ']' :: rest => some (.array [], rest)
      | rest => items fuel [] rest
    | '"' :: rest => (text [] rest).map fun (s, rest) => (.string s, rest)
    | 't' :: 'r' :: 'u' :: 'e' :: rest => some (.bool true, rest)
    | 'f' :: 'a' :: 'l' :: 's' :: 'e' :: rest => some (.bool false, rest)
    | 'n' :: 'u' :: 'l' :: 'l' :: rest => some (.null, rest)
    | cs => (ofLiteral? (cs.takeWhile isNumberChar)).map fun n => (n, cs.dropWhile isNumberChar)

/-- The items of an array, up to its closing bracket. -/
def items : Nat → List Json → List Char → Option (Json × List Char)
  | 0, _, _ => none
  | fuel + 1, acc, cs =>
    match value fuel cs with
    | none => none
    | some (v, rest) =>
      match skipBlank rest with
      | ',' :: rest => items fuel (v :: acc) rest
      | ']' :: rest => some (.array (v :: acc).reverse, rest)
      | _ => none

/-- The members of an object, up to its closing brace. -/
def members : Nat → List (String × Json) → List Char → Option (Json × List Char)
  | 0, _, _ => none
  | fuel + 1, acc, cs =>
    match skipBlank cs with
    | '"' :: rest =>
      match text [] rest with
      | none => none
      | some (name, rest) =>
        match skipBlank rest with
        | ':' :: rest =>
          match value fuel rest with
          | none => none
          | some (v, rest) =>
            match skipBlank rest with
            | ',' :: rest => members fuel (putMember acc name v) rest
            | '}' :: rest => some (.object (putMember acc name v), rest)
            | _ => none
        | _ => none
    | _ => none

end

end Enclave.Json.Parser

/-- **The value a JSON text stands for**, if it is one. -/
def Enclave.Json.parse? (s : String) : Option Enclave.Json :=
  let cs := s.toList
  match Enclave.Json.Parser.value (2 * cs.length + 2) cs with
  | some (j, rest) => if Enclave.Json.Parser.skipBlank rest = [] then some j else none
  | none => none
