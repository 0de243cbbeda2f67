import Enclave.Json.Parser
import Enclave.Text.Basic

/-!
# Values in variables

A variable holds text, and a setting may need something else. The text is
therefore read as a literal where it looks like one: a truth value, a number,
a text in quotes, a list or a table. Any other text stands for itself, and so
does one that only begins like a literal.
-/

namespace Enclave.Literal

/-- Whether a character is a blank that literals may have around them. -/
def isBlank (c : Char) : Bool :=
  c = ' ' || c = '\t' || c = '\n' || c = '\r' || c = '\x0c'

/-- **A natural number** in decimal digits, perhaps with a plus sign, that is
below a bound. -/
def natural? (bound : Nat) (cs : List Char) : Option Nat :=
  let ds := if cs.head? = some '+' then cs.drop 1 else cs
  if ds ≠ [] && ds.all Char.isDigit && Json.Parser.ofDigits ds < bound then
    some (Json.Parser.ofDigits ds)
  else none

/-- A negative number that fits 64 bits. -/
def negative? (cs : List Char) : Option Int :=
  match cs with
  | '-' :: ds =>
    if ds ≠ [] && ds.all Char.isDigit && Json.Parser.ofDigits ds ≤ UInt64.size / 2 then
      some (-(Json.Parser.ofDigits ds : Int))
    else none
  | _ => none

/-- **A number with a point.** There have to be digits on one side of it, and a
power of ten may follow. -/
def decimal? (cs : List Char) : Option Decimal :=
  let negative := cs.head? = some '-'
  let body := if negative || cs.head? = some '+' then cs.drop 1 else cs
  let (mantissa, power) := body.span fun c => c ≠ 'e' && c ≠ 'E'
  let (before, behind) := mantissa.span (· ≠ '.')
  let digits := before ++ behind.drop 1
  let down := (power.drop 1).head? = some '-'
  let shift := if down || (power.drop 1).head? = some '+' then power.drop 2 else power.drop 1
  if behind ≠ [] && digits ≠ [] && digits.all Char.isDigit
      && (power = [] || (shift ≠ [] && shift.all Char.isDigit)) then
    let size : Int := Json.Parser.ofDigits shift
    some ⟨negative, Json.Parser.ofDigits digits,
      (if down then -size else size) - ((behind.length : Int) - 1)⟩
  else none

/-- **The value of a bare word**: a number if it is one, and else a text. -/
def word (cs : List Char) : Json :=
  let cs := Text.trim cs
  match decimal? cs, natural? UInt64.size cs, negative? cs with
  | some d, _, _ => .decimal d
  | none, some n, _ => .integer n
  | none, none, some n => .integer n
  | none, none, none => .string (String.ofList cs)

/-- Whether a character ends a bare word. -/
def isSeparator (c : Char) : Bool :=
  c = ',' || c = '{' || c = '}' || c = '[' || c = ']'

/-- The characters that a number of bytes in front hold, if none is cut. -/
def leading? : Nat → List Char → Option (List Char)
  | 0, _ => some []
  | _ + 1, [] => none
  | n + 1, c :: cs =>
    if c.utf8Size ≤ n + 1 then (leading? (n + 1 - c.utf8Size) cs).map (c :: ·) else none

/-- **The character an escape stands for**, from behind the backslash, and what
is left. -/
def escape? : List Char → Option (Char × List Char)
  | '/' :: _ => none
  | 'u' :: a :: b :: c :: d :: rest => do
    let n ← Json.Parser.codeUnit? a b c d
    if n.isValidChar then some (Char.ofNat n, rest) else none
  | 'U' :: a :: b :: c :: d :: e :: f :: g :: h :: rest => do
    let n := (← Json.Parser.codeUnit? a b c d) * 0x10000 + (← Json.Parser.codeUnit? e f g h)
    if n.isValidChar then some (Char.ofNat n, rest) else none
  | c :: rest => (Json.Parser.shortEscape? c).map (·, rest)
  | [] => none

/-- **A text with escapes**, from a place behind the first of them. -/
def escapedText : Nat → List Char → List Char → Option (String × List Char)
  | 0, _, _ => none
  | _ + 1, _, [] => none
  | fuel + 1, acc, c :: rest =>
    if c = '"' then some (String.ofList acc.reverse, rest)
    else if c = '\\' then
      match escape? rest with
      | some (c, rest) => escapedText fuel (c :: acc) rest
      | none => none
    else if c.toNat < 0x20 && c ≠ '\t' || c.toNat = 0x7f then none
    else escapedText fuel (c :: acc) rest

/-- **A text**, from behind its opening mark. What stands in front of the first
escape is counted in characters and cut to as many bytes, which is all of it
where every character has one byte. -/
def text (cs : List Char) : Option (String × List Char) :=
  let plain := cs.takeWhile fun c => c ≠ '"' && c ≠ '\\'
  let rest := cs.drop plain.length
  let kept := if rest.head? = some '\\' then leading? plain.length plain else some plain
  if plain.any fun c => c.toNat < 0x20 && c ≠ '\t' || c.toNat = 0x7f then none
  else kept.bind fun kept => escapedText (rest.length + 1) kept.reverse rest

/-- What is left after blanks. -/
def skipBlank (cs : List Char) : List Char := cs.dropWhile isBlank

/-- The name in front of a value in a table. -/
def name (cs : List Char) : Option (String × List Char) :=
  match cs with
  | '"' :: rest => text rest
  | cs =>
    let isNameChar (c : Char) : Bool := c.isAlphanum || c = '_' || c = '-'
    match cs.takeWhile isNameChar with
    | [] => none
    | name => some (String.ofList name, cs.dropWhile isNameChar)

mutual

/-- **A value** and the blanks around it. -/
def value : Nat → List Char → Option (Json × List Char)
  | 0, _ => none
  | fuel + 1, cs =>
    let found : Option (Json × List Char) :=
      match skipBlank cs with
      | 't' :: 'r' :: 'u' :: 'e' :: rest => some (.bool true, rest)
      | 'f' :: 'a' :: 'l' :: 's' :: 'e' :: rest => some (.bool false, rest)
      | '{' :: rest => pairs fuel [] rest
      | '[' :: rest => items fuel [] rest
      | '"' :: rest => (text rest).map fun (s, rest) => (.string s, rest)
      | '\'' :: rest =>
        match rest with
        | c :: '\'' :: rest => some (.string c.toString, rest)
        | _ => none
      | cs => some (word (cs.takeWhile (!isSeparator ·)), cs.dropWhile (!isSeparator ·))
    found.map fun (j, rest) => (j, skipBlank rest)

/-- The items of a list, up to its closing bracket. -/
def items : Nat → List Json → List Char → Option (Json × List Char)
  | 0, _, _ => none
  | fuel + 1, acc, cs =>
    match cs with
    | ']' :: rest => some (.array acc.reverse, rest)
    | cs =>
      match value fuel cs with
      | some (j, ',' :: rest) => items fuel (j :: acc) rest
      | some (j, ']' :: rest) => some (.array (j :: acc).reverse, rest)
      | _ => none

/-- The names and values of a table, up to its closing brace. -/
def pairs : Nat → List (String × Json) → List Char → Option (Json × List Char)
  | 0, _, _ => none
  | fuel + 1, acc, cs =>
    match cs with
    | '}' :: rest => some (.object acc, rest)
    | cs =>
      match name (skipBlank cs) with
      | none => none
      | some (name, rest) =>
        match skipBlank rest with
        | '=' :: rest =>
          match value fuel rest with
          | some (j, ',' :: rest) => pairs fuel (Json.putMember acc name j) rest
          | some (j, '}' :: rest) => some (.object (Json.putMember acc name j), rest)
          | _ => none
        | _ => none

end

/-- **The value that the text of a variable stands for.** -/
def parse (s : String) : Json :=
  match value (2 * s.length + 2) s.toList with
  | some (j, []) => j
  | _ => .string s

end Enclave.Literal
