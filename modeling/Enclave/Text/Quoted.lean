import Enclave.Text.Printable

/-!
# Quoted text

How a text is shown inside a message: between quotation marks, with the mark
itself, the backslash and everything that does not print written as an escape.
A message can then be read back without doubt about where the text ends.
-/

namespace Enclave.Text

/-- The hexadecimal digits of a number, without leading zeros. -/
def hexDigits (n : Nat) : String :=
  String.ofList (Nat.toDigits 16 n)

/-- **A character inside quotation marks.** Only the mark that closes the text
is escaped, not the other kind. -/
def escapeChar (mark c : Char) : String :=
  if c = '\x00' then "\\0"
  else if c = '\t' then "\\t"
  else if c = '\r' then "\\r"
  else if c = '\n' then "\\n"
  else if c = '\\' || c = mark then String.ofList ['\\', c]
  else if isPrintable c then c.toString
  else "\\u\x7b" ++ hexDigits c.toNat ++ "\x7d"

/-- **A character between single quotation marks.** -/
def quotedChar (c : Char) : String :=
  "'" ++ escapeChar '\'' c ++ "'"

/-- **A text between double quotation marks.** -/
def quoted (s : String) : String :=
  "\"" ++ String.join (s.toList.map (escapeChar '"')) ++ "\""

end Enclave.Text
