import Enclave.Json.Parser

/-!
# The words of a settings file

Blanks, comments, texts and bare words. Each reader takes its word off the
front of what is left and answers with the rest, or with `none` where there is
no such word.

Texts come in four kinds: between double quotes with escapes, between single
quotes as they stand, and both of these over several lines between three
quotes. Line ends inside a text are single line feeds, however they were
written.
-/

namespace Enclave.Toml

/-- What is left after spaces and tabs. -/
def skipBlank (cs : List Char) : List Char :=
  cs.dropWhile fun c => c = ' ' || c = '\t'

/-- Whether a character may stand in a comment or a text: no control but the
tab. -/
def isPlain (c : Char) : Bool :=
  c = '\t' || (0x20 ≤ c.toNat && c.toNat ≠ 0x7f)

/-- **What is left after a line end.** -/
def lineEnd : List Char → Option (List Char)
  | '\n' :: rest => some rest
  | '\r' :: '\n' :: rest => some rest
  | _ => none

/-- What is left after a comment, if there is one. -/
def skipComment : List Char → List Char
  | '#' :: rest => rest.dropWhile isPlain
  | cs => cs

/-- **What is left after the end of a line**: blanks, a comment, and a line end
or the end of everything. -/
def restOfLine (cs : List Char) : Option (List Char) :=
  match skipComment (skipBlank cs) with
  | [] => some []
  | cs => lineEnd cs

/-- **What is left after blanks and line ends.** -/
def skipLines : Nat → List Char → List Char
  | 0, cs => cs
  | fuel + 1, cs =>
    match lineEnd (skipBlank cs) with
    | some rest => skipLines fuel rest
    | none => skipBlank cs

/-- **What is left after blanks, comments and line ends.** A comment has to end
with its line. -/
def skipNotes : Nat → List Char → List Char
  | 0, cs => cs
  | fuel + 1, cs =>
    match lineEnd (skipComment (skipBlank cs)) with
    | some rest => skipNotes fuel rest
    | none => skipBlank cs

/-- The value of hexadecimal digits, if that is what they are. -/
def hexNumber? : Nat → List Char → Option Nat
  | acc, [] => some acc
  | acc, c :: rest => (Json.Parser.hexValue? c).bind fun v => hexNumber? (16 * acc + v) rest

/-- The character with a number that is given by some hexadecimal digits. -/
def numberedChar? (digits : List Char) : Option Char :=
  (hexNumber? 0 digits).bind fun n => if n.isValidChar then some (Char.ofNat n) else none

/-- The character that stands behind a backslash for another one. -/
def shortEscape? : Char → Option Char
  | '"' => some '"'
  | '\\' => some '\\'
  | 'b' => some '\x08'
  | 'f' => some '\x0c'
  | 'n' => some '\n'
  | 'r' => some '\r'
  | 't' => some '\t'
  | _ => none

/-- **The character of an escape**, from behind its backslash. -/
def escape : List Char → Option (Char × List Char)
  | 'u' :: a :: b :: c :: d :: rest => (numberedChar? [a, b, c, d]).map (·, rest)
  | 'U' :: a :: b :: c :: d :: e :: f :: g :: h :: rest =>
    (numberedChar? [a, b, c, d, e, f, g, h]).map (·, rest)
  | c :: rest => (shortEscape? c).map (·, rest)
  | [] => none

/-- **A text on one line**, from behind its opening mark. -/
def lineText (mark : Char) : Nat → List Char → List Char → Option (String × List Char)
  | 0, _, _ => none
  | _ + 1, _, [] => none
  | fuel + 1, acc, c :: rest =>
    if c = mark then some (String.ofList acc.reverse, rest)
    else if c = '\\' && mark = '"' then
      match escape rest with
      | some (e, rest) => lineText mark fuel (e :: acc) rest
      | none => none
    else if isPlain c then lineText mark fuel (c :: acc) rest
    else none

/-- **A text over several lines**, from behind its opening marks. One or two
marks inside are part of the text, also right in front of the closing ones; a
backslash at the end of a line takes away the line end and all blanks and line
ends that follow. -/
def longText (mark : Char) : Nat → List Char → List Char → Option (String × List Char)
  | 0, _, _ => none
  | _ + 1, _, [] => none
  | fuel + 1, acc, c :: rest =>
    if c = mark then
      let marks := rest.takeWhile (· = mark)
      let after := rest.dropWhile (· = mark)
      if marks.length < 2 then longText mark fuel (c :: marks ++ acc) after
      else if marks.length ≤ 4 then
        some (String.ofList (List.replicate (marks.length - 2) mark ++ acc).reverse, after)
      else none
    else if c = '\\' && mark = '"' then
      match lineEnd (skipBlank rest) with
      | some rest => longText mark fuel acc (skipLines rest.length rest)
      | none =>
        match escape rest with
        | some (e, rest) => longText mark fuel (e :: acc) rest
        | none => none
    else
      match lineEnd (c :: rest) with
      | some rest => longText mark fuel ('\n' :: acc) rest
      | none => if isPlain c then longText mark fuel (c :: acc) rest else none

/-- **A text in quotes** of one of the four kinds. -/
def quotedText (cs : List Char) : Option (String × List Char) :=
  match cs with
  | a :: b :: c :: rest =>
    if (a = '"' || a = '\'') && b = a && c = a then
      longText a (rest.length + 1) [] ((lineEnd rest).getD rest)
    else if a = '"' || a = '\'' then lineText a cs.length [] (b :: c :: rest)
    else none
  | a :: rest => if a = '"' || a = '\'' then lineText a cs.length [] rest else none
  | [] => none

/-- Whether a character may stand in a bare key. -/
def isBare (c : Char) : Bool := c.isAlphanum || c = '_' || c = '-'

/-- **One name of a key**: in quotes on one line, or bare. -/
def keyName (cs : List Char) : Option (String × List Char) :=
  match cs with
  | [] => none
  | c :: rest =>
    if c = '"' || c = '\'' then lineText c cs.length [] rest
    else
      match cs.takeWhile isBare with
      | [] => none
      | name => some (String.ofList name, cs.dropWhile isBare)

/-- How many names a key may have, and how deep arrays and tables may be
nested. -/
def maxDepth : Nat := 79

/-- **The names of a key**, with dots between them and no more of them than
there is room for. -/
def key : Nat → List Char → Option (List String × List Char)
  | 0, _ => none
  | room + 1, cs =>
    match keyName (skipBlank cs) with
    | none => none
    | some (name, rest) =>
      match skipBlank rest with
      | '.' :: rest => (key room rest).map fun (names, rest) => (name :: names, rest)
      | rest => some ([name], rest)

end Enclave.Toml
