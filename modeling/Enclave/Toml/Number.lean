import Enclave.Json.Parser

/-!
# Numbers and dates

What a bare word in front of the end of a value can stand for: an integer in
one of four bases, a decimal number, one of the numbers that no decimal
stands for, or a date or time. Digits may be grouped by single underscores.
Integers have 64 bits and a sign; decimals have to be below the largest
double-precision value.
-/

namespace Enclave.Toml

/-- **Digits without the underscores** that group them, if every underscore
stands between two digits. -/
def ungroup (isDigit : Char → Bool) : List Char → Option (List Char)
  | [] => none
  | [d] => if isDigit d then some [d] else none
  | d :: '_' :: rest => if isDigit d then (ungroup isDigit rest).map (d :: ·) else none
  | d :: rest => if isDigit d then (ungroup isDigit rest).map (d :: ·) else none

/-- The number that digits of some base stand for. -/
def ofDigits (base : Nat) (ds : List Char) : Nat :=
  ds.foldl (fun n d => base * n + (Json.Parser.hexValue? d).getD 0) 0

/-- Whether a character is a digit of some base. -/
def isDigitOf (base : Nat) (c : Char) : Bool :=
  match Json.Parser.hexValue? c with
  | some v => v < base
  | none => false

/-- An integer, if it fits 64 bits. -/
def fitting (n : Int) : Option Json :=
  if -(UInt64.size / 2 : Nat) ≤ n && n < (UInt64.size / 2 : Nat) then some (.integer n) else none

/-- An integer in a base that is not ten. -/
def based (base : Nat) (ds : List Char) : Option Json :=
  (ungroup (isDigitOf base) ds).bind fun ds => fitting (ofDigits base ds)

/-- A sign in front of a word, and the word. -/
def signed : List Char → Bool × List Char
  | '-' :: rest => (true, rest)
  | '+' :: rest => (false, rest)
  | cs => (false, cs)

/-- Digits of a whole number, which has no zeros in front. -/
def whole (ds : List Char) : Option (List Char) :=
  if 1 < ds.length && ds.head? = some '0' then none else ungroup (isDigitOf 10) ds

/-- **An integer.** -/
def integer? : List Char → Option Json
  | '0' :: 'x' :: ds => based 16 ds
  | '0' :: 'o' :: ds => based 8 ds
  | '0' :: 'b' :: ds => based 2 ds
  | cs =>
    let (negative, ds) := signed cs
    (whole ds).bind fun ds =>
      let n : Int := ofDigits 10 ds
      fitting (if negative then -n else n)

/-- Whether a decimal is at or above the bound where double-precision values
end. -/
def isHuge (d : Decimal) : Bool :=
  let size : Int := (Nat.toDigits 10 d.digits).length
  if d.digits = 0 || size + d.exponent < 300 then false
  else if 320 < size + d.exponent then true
  else (1 <<< 1024 - 1 <<< 970) * Double.powerOfTen (-d.exponent).toNat
    ≤ d.digits * Double.powerOfTen d.exponent.toNat

/-- **A decimal number**: a whole number with a fraction, a power of ten, or
both. -/
def decimal? (cs : List Char) : Option Json := do
  let (negative, body) := signed cs
  let (mantissa, power) := body.span fun c => c ≠ 'e' && c ≠ 'E'
  let (before, behind) := mantissa.span (· ≠ '.')
  let wholeDigits ← whole before
  let fraction ← if behind = [] then some [] else ungroup (isDigitOf 10) (behind.drop 1)
  let (down, powerDigits) := signed (power.drop 1)
  let shift ← if power = [] then some [] else ungroup (isDigitOf 10) powerDigits
  if behind = [] && power = [] then none
  let size : Int := ofDigits 10 shift
  let d : Decimal :=
    ⟨negative, ofDigits 10 (wholeDigits ++ fraction),
      (if down then -size else size) - fraction.length⟩
  if !negative && isHuge d then none else some (.decimal d)

/-- A value that no other kind of value stands for, kept as its text. -/
def special (kind : String) (cs : List Char) : Json :=
  .object [(kind, .string (String.ofList cs))]

/-- **A number that no decimal stands for.** -/
def special? (cs : List Char) : Option Json :=
  let word := (signed cs).2
  if word = ['i', 'n', 'f'] || word = ['n', 'a', 'n'] then some (special "number" cs) else none

/-- The number in a field of decimal digits, if it is within bounds. -/
def field (low high : Nat) (ds : List Char) : Option Nat :=
  if ds ≠ [] && ds.all Char.isDigit && low ≤ ofDigits 10 ds && ofDigits 10 ds ≤ high then
    some (ofDigits 10 ds)
  else none

/-- The last day of a month. -/
def lastDay (year month : Nat) : Nat :=
  if month = 2 then
    if year % 4 = 0 && (year % 100 ≠ 0 || year % 400 = 0) then 29 else 28
  else if month = 4 || month = 6 || month = 9 || month = 11 then 30
  else 31

/-- **Whether a word is a date**: year, month and day. -/
def isDate : List Char → Bool
  | [a, b, c, d, '-', e, f, '-', g, h] =>
    match field 0 9999 [a, b, c, d], field 1 12 [e, f], field 1 31 [g, h] with
    | some year, some month, some day => day ≤ lastDay year month
    | _, _, _ => false
  | _ => false

/-- Whether a word is an hour and a minute. -/
def isClock : List Char → Bool
  | [a, b, ':', c, d] => (field 0 23 [a, b]).isSome && (field 0 59 [c, d]).isSome
  | _ => false

/-- **Whether a word is a time**: hour, minute, second and perhaps a fraction.
A minute may have a leap second. -/
def isTime (cs : List Char) : Bool :=
  isClock (cs.take 5) &&
    match cs.drop 5 with
    | ':' :: a :: b :: fraction =>
      (field 0 60 [a, b]).isSome &&
        match fraction with
        | [] => true
        | '.' :: ds => ds ≠ [] && ds.all Char.isDigit
        | _ => false
    | _ => false

/-- Whether a word is a time, with or without the distance from universal
time. -/
def isZonedTime (cs : List Char) : Bool :=
  isTime cs || (cs.getLast?.any (fun c => c = 'Z' || c = 'z') && isTime cs.dropLast)
    || (isTime (cs.take (cs.length - 6)) &&
      match cs.drop (cs.length - 6) with
      | sign :: clock => (sign = '+' || sign = '-') && isClock clock
      | [] => false)

/-- **A date, a time, or both** with a mark between them. -/
def date? (cs : List Char) : Option Json :=
  let day := cs.take 10
  let ok :=
    isTime cs || isDate cs ||
      (isDate day &&
        match cs.drop 10 with
        | mark :: time => (mark = 'T' || mark = 't' || mark = ' ') && isZonedTime time
        | [] => false)
  if ok then some (special "date" cs) else none

/-- Whether a character can be part of a bare word. -/
def isWordChar (c : Char) : Bool :=
  c.isAlphanum || c = '+' || c = '-' || c = '_' || c = '.' || c = ':'

/-- **The value of a bare word**, and what is left. A date may be followed by a
blank and a time, which then are one value. -/
def word (cs : List Char) : Option (Json × List Char) :=
  let name := cs.takeWhile isWordChar
  let rest := cs.dropWhile isWordChar
  let both :=
    match rest with
    | ' ' :: more =>
      if isDate name then
        (date? (name ++ ' ' :: more.takeWhile isWordChar)).map (·, more.dropWhile isWordChar)
      else none
    | _ => none
  both <|> (if name = "true".toList then some (.bool true, rest)
    else if name = "false".toList then some (.bool false, rest)
    else (date? name <|> integer? name <|> decimal? name <|> special? name).map (·, rest))

end Enclave.Toml
