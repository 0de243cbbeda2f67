import Enclave.Proofs.Hexadecimal
import Enclave.Settings.Literal
import Mathlib.Data.List.TakeWhile

/-!
# Texts that stand for themselves

A variable is read as a literal where it looks like one, and what looks like one can be
told from its outside (`Literal.looksLiteral`): it is a truth value or a number, or it
stands between two marks that belong together. Any other text without white space around
it stands for itself (`Literal.parse_of_not_looksLiteral`). The argument is that reading a
value takes characters off the front and leaves an end of the text (`Literal.suffix_value`),
and that a list, a table or a text in quotes is left right behind its closing mark. So when
nothing is left, that mark is the last character.

A text that does look like a literal can still be given: in quotes, with every character
escaped by its number, it is read as what it was (`Literal.parse_quoted`).
-/

namespace Enclave

/-! ## Text without white space around it -/

namespace Text

variable {cs rest : List Char}

/-- **What a text is trimmed to** has no white space in front and none behind. -/
theorem dropWhile_of_trim_eq_self (h : trim cs = cs) :
    cs.dropWhile isSpace = cs ∧ cs.reverse.dropWhile isSpace = cs.reverse := by
  have hfront : cs.dropWhile isSpace = cs := by
    refine (List.dropWhile_suffix isSpace).eq_of_length (Nat.le_antisymm ?_ ?_)
    · exact (List.dropWhile_suffix isSpace).length_le
    · have hback : ((cs.dropWhile isSpace).reverse.dropWhile isSpace).length
          ≤ (cs.dropWhile isSpace).reverse.length := (List.dropWhile_suffix isSpace).length_le
      rw [List.length_reverse] at hback
      calc cs.length = (trim cs).length := by rw [h]
        _ = ((cs.dropWhile isSpace).reverse.dropWhile isSpace).length := List.length_reverse
        _ ≤ (cs.dropWhile isSpace).length := hback
  refine ⟨hfront, List.reverse_eq_iff.mp ?_⟩
  unfold trim at h
  rwa [hfront] at h

/-- **No end of a trimmed text is white space.** -/
theorem eq_nil_of_suffix (h : trim cs = cs) (hsuffix : rest <:+ cs)
    (hspace : ∀ c ∈ rest, isSpace c = true) : rest = [] := by
  rcases List.eq_nil_or_concat rest with hnil | ⟨before, c, rfl⟩
  · exact hnil
  obtain ⟨front, rfl⟩ := hsuffix
  have hback := (dropWhile_of_trim_eq_self h).2
  rw [List.concat_eq_append] at hback hspace
  have hc : isSpace c = true := hspace c (List.mem_append_right _ List.mem_cons_self)
  rw [List.reverse_append, List.reverse_append, List.reverse_singleton, List.singleton_append,
    List.cons_append, List.dropWhile_cons_of_pos hc] at hback
  -- what is left of the reversed text is shorter than it
  have hshort := (List.dropWhile_suffix (l := before.reverse ++ front.reverse) isSpace).length_le
  rw [hback, List.length_cons] at hshort
  exact absurd hshort (Nat.not_succ_le_self _)

end Text

namespace Literal

variable {cs rest : List Char} {fuel : Nat}

/-- A blank is white space. -/
theorem isSpace_of_isBlank {c : Char} (h : isBlank c = true) : Text.isSpace c = true := by
  unfold isBlank at h
  simp only [Bool.or_eq_true, decide_eq_true_iff] at h
  rcases h with (((rfl | rfl) | rfl) | rfl) | rfl <;> decide

/-- **A trimmed text starts with no blank.** -/
theorem skipBlank_of_trim (h : Text.trim cs = cs) : skipBlank cs = cs := by
  have hfront := (Text.dropWhile_of_trim_eq_self h).1
  cases cs with
  | nil => rfl
  | cons c cs =>
    refine List.dropWhile_cons_of_neg fun hblank => ?_
    rw [List.dropWhile_cons_of_pos (isSpace_of_isBlank hblank)] at hfront
    have hshort := (List.dropWhile_suffix (l := cs) Text.isSpace).length_le
    rw [hfront] at hshort
    exact absurd hshort (Nat.not_succ_le_self _)

/-- **And it does not end with one.** -/
theorem eq_nil_of_skipBlank (h : Text.trim cs = cs) (hsuffix : rest <:+ cs)
    (hblank : skipBlank rest = []) : rest = [] :=
  Text.eq_nil_of_suffix h hsuffix fun c hc =>
    isSpace_of_isBlank (List.dropWhile_eq_nil_iff.mp hblank c hc)

/-! ## What is left of a text -/

/-- **An escape** leaves an end of what it is read from. -/
theorem suffix_escape? {c : Char} (h : escape? cs = some (c, rest)) : rest <:+ cs := by
  unfold escape? at h
  split at h
  case h_1 => cases h
  case h_2 a b c d rest' =>
    obtain ⟨n, -, h⟩ := Option.bind_eq_some_iff.mp h
    split at h
    case isTrue =>
      cases h
      exact List.suffix_append ['u', a, b, c, d] rest
    case isFalse => cases h
  case h_3 a b c d e f g i rest' =>
    obtain ⟨high, -, h⟩ := Option.bind_eq_some_iff.mp h
    obtain ⟨low, -, h⟩ := Option.bind_eq_some_iff.mp h
    dsimp only at h
    split at h
    case isTrue =>
      cases h
      exact List.suffix_append ['U', a, b, c, d, e, f, g, i] rest
    case isFalse => cases h
  case h_4 c rest' _ _ _ =>
    obtain ⟨escaped, -, h⟩ := Option.map_eq_some_iff.mp h
    cases h
    exact List.suffix_cons c rest
  case h_5 => cases h

/-- **A text with escapes** is left behind its closing mark. -/
theorem suffix_escapedText {acc : List Char} {s : String}
    (h : escapedText fuel acc cs = some (s, rest)) : '"' :: rest <:+ cs := by
  induction fuel generalizing acc cs with
  | zero => cases h
  | succ fuel ih =>
    cases cs with
    | nil => cases h
    | cons c cs =>
      unfold escapedText at h
      split at h
      case isTrue hmark =>
        subst hmark
        cases h
        exact List.suffix_rfl
      case isFalse =>
        split at h
        case isTrue =>
          split at h
          case h_1 escaped rest' hescape =>
            exact ((ih h).trans (suffix_escape? hescape)).trans (List.suffix_cons c cs)
          case h_2 => cases h
        case isFalse =>
          split at h
          case isTrue => cases h
          case isFalse => exact (ih h).trans (List.suffix_cons c cs)

/-- **So is any text.** -/
theorem suffix_text {s : String} (h : text cs = some (s, rest)) : '"' :: rest <:+ cs := by
  unfold text at h
  dsimp only at h
  split at h
  case isTrue => cases h
  case isFalse =>
    obtain ⟨kept, -, h⟩ := Option.bind_eq_some_iff.mp h
    exact (suffix_escapedText h).trans (List.drop_suffix _ cs)

/-- **A name** leaves an end of what it is read from. -/
theorem suffix_name {s : String} (h : name cs = some (s, rest)) : rest <:+ cs := by
  unfold name at h
  split at h
  case h_1 inner =>
    exact ((List.suffix_cons '"' rest).trans (suffix_text h)).trans (List.suffix_cons '"' inner)
  case h_2 =>
    dsimp only at h
    split at h
    case h_1 => cases h
    case h_2 =>
      cases h
      exact List.dropWhile_suffix _

theorem suffix_skipBlank (cs : List Char) : skipBlank cs <:+ cs := List.dropWhile_suffix isBlank

/-- **Values, lists and tables** leave an end of what they are read from, the latter two
right behind their closing marks. The induction is on the fuel, which goes down whenever
one of them is read as a part of another. -/
theorem suffix_value_items_pairs (fuel : Nat) :
    (∀ {cs rest : List Char} {j : Json}, value fuel cs = some (j, rest) → rest <:+ cs)
      ∧ (∀ {acc : List Json} {cs rest : List Char} {j : Json},
        items fuel acc cs = some (j, rest) → ']' :: rest <:+ cs)
      ∧ ∀ {acc : List (String × Json)} {cs rest : List Char} {j : Json},
        pairs fuel acc cs = some (j, rest) → '}' :: rest <:+ cs := by
  induction fuel with
  | zero => exact ⟨nofun, nofun, nofun⟩
  | succ fuel ih =>
    obtain ⟨hvalue, hitems, hpairs⟩ := ih
    refine ⟨fun {cs rest j} h => ?_, fun {acc cs rest j} h => ?_, fun {acc cs rest j} h => ?_⟩
    · unfold value at h
      obtain ⟨⟨found, left⟩, hfound, h⟩ := Option.map_eq_some_iff.mp h
      cases h
      refine (suffix_skipBlank left).trans (List.IsSuffix.trans ?_ (suffix_skipBlank cs))
      generalize skipBlank cs = cs at hfound
      split at hfound
      case h_1 =>
        cases hfound
        exact List.suffix_append ['t', 'r', 'u', 'e'] left
      case h_2 =>
        cases hfound
        exact List.suffix_append ['f', 'a', 'l', 's', 'e'] left
      case h_3 inner =>
        exact ((List.suffix_cons '}' left).trans (hpairs hfound)).trans (List.suffix_cons '{' inner)
      case h_4 inner =>
        exact ((List.suffix_cons ']' left).trans (hitems hfound)).trans (List.suffix_cons '[' inner)
      case h_5 inner =>
        obtain ⟨⟨s, left'⟩, htext, hfound⟩ := Option.map_eq_some_iff.mp hfound
        cases hfound
        exact ((List.suffix_cons '"' left).trans (suffix_text htext)).trans
          (List.suffix_cons '"' inner)
      case h_6 inner =>
        split at hfound
        case h_1 c left' =>
          cases hfound
          exact List.suffix_append ['\'', c, '\''] left
        case h_2 => cases hfound
      case h_7 =>
        cases hfound
        exact List.dropWhile_suffix _
    · unfold items at h
      split at h
      case h_1 left =>
        cases h
        exact List.suffix_rfl
      case h_2 =>
        split at h
        case h_1 j' left hj =>
          exact ((hitems h).trans (List.suffix_cons ',' left)).trans (hvalue hj)
        case h_2 j' left hj =>
          cases h
          exact hvalue hj
        case h_3 => cases h
    · unfold pairs at h
      split at h
      case h_1 left =>
        cases h
        exact List.suffix_rfl
      case h_2 =>
        split at h
        case h_1 => cases h
        case h_2 s behind hname =>
          have hbehind := (suffix_name hname).trans (suffix_skipBlank cs)
          split at h
          case h_1 inner heq =>
            have hinner : inner <:+ cs :=
              ((List.suffix_cons '=' inner).trans (heq ▸ suffix_skipBlank behind)).trans hbehind
            split at h
            case h_1 j' left hj =>
              exact (((hpairs h).trans (List.suffix_cons ',' left)).trans (hvalue hj)).trans hinner
            case h_2 j' left hj =>
              cases h
              exact (hvalue hj).trans hinner
            case h_3 => cases h
          case h_2 => cases h

/-! ## What looks like a literal -/

/-- Whether a text is a number of any kind. -/
def isNumber (cs : List Char) : Bool :=
  (decimal? cs).isSome || (natural? UInt64.size cs).isSome || (negative? cs).isSome

/-- Whether a text stands between two marks. -/
def isEnclosed (cs : List Char) (marks : Char × Char) : Bool :=
  2 ≤ cs.length && cs.head? = some marks.1 && cs.getLast? = some marks.2

/-- The marks around a text, a character, a list and a table. -/
def enclosures : List (Char × Char) := [('"', '"'), ('\'', '\''), ('[', ']'), ('{', '}')]

/-- **Whether a text looks like a literal**: it is a truth value or a number, or it stands
between the marks of another literal. -/
def looksLiteral (s : String) : Bool :=
  s = "true" || s = "false" || isNumber s.toList || enclosures.any (isEnclosed s.toList)

/-- What ends with the closing mark behind an opening one stands between them. -/
theorem isEnclosed_cons {opening closing : Char} (h : [closing] <:+ cs) :
    isEnclosed (opening :: cs) (opening, closing) = true := by
  obtain ⟨inner, rfl⟩ := h
  unfold isEnclosed
  rw [List.length_cons, List.length_append, List.head?_cons, ← List.cons_append,
    List.getLast?_append]
  simp

/-- **A bare word** that is no number stands for itself. -/
theorem word_of_not_isNumber (htrim : Text.trim cs = cs) (h : isNumber cs = false) :
    word cs = .string (String.ofList cs) := by
  unfold isNumber at h
  simp only [Bool.or_eq_false_iff, Option.isSome_eq_false_iff, Option.isNone_iff_eq_none] at h
  obtain ⟨⟨hdecimal, hnatural⟩, hnegative⟩ := h
  unfold word
  dsimp only
  rw [htrim, hdecimal, hnatural, hnegative]

/-- **What is read to the end** of a trimmed text that does not look like a literal is
the text itself. -/
theorem eq_string_of_value {s : String} {j : Json} (htrim : Text.trim s.toList = s.toList)
    (hplain : looksLiteral s = false) (h : value fuel s.toList = some (j, [])) :
    j = .string s := by
  cases fuel with
  | zero => cases h
  | succ fuel =>
    obtain ⟨-, hitems, hpairs⟩ := suffix_value_items_pairs fuel
    unfold value at h
    obtain ⟨⟨found, left⟩, hfound, h⟩ := Option.map_eq_some_iff.mp h
    obtain ⟨rfl, hleft⟩ := Prod.mk.inj h
    rw [skipBlank_of_trim htrim] at hfound
    have hend (hsuffix : left <:+ s.toList) : left = [] := eq_nil_of_skipBlank htrim hsuffix hleft
    unfold looksLiteral at hplain
    simp only [Bool.or_eq_false_iff, decide_eq_false_iff_not, ← String.toList_inj] at hplain
    obtain ⟨⟨⟨htrue, hfalse⟩, hnumber⟩, henclosed⟩ := hplain
    have hs : s = String.ofList s.toList := (String.ofList_toList).symm
    generalize s.toList = cs at *
    -- a closing mark with nothing behind it is the last character
    have hmark (marks : Char × Char) {inner : List Char} (hmarks : marks ∈ enclosures)
        (hcs : cs = marks.1 :: inner) (h : marks.2 :: left <:+ inner) : False := by
      have hnil := hend (((List.suffix_cons marks.2 left).trans h).trans
        (hcs ▸ List.suffix_cons marks.1 inner))
      rw [hnil] at h
      have hlooks := List.any_eq_false.mp henclosed marks hmarks
      rw [hcs] at hlooks
      exact hlooks (isEnclosed_cons h)
    split at hfound
    case h_1 =>
      cases hfound
      rw [hend (List.suffix_append ['t', 'r', 'u', 'e'] left)] at htrue
      exact absurd rfl htrue
    case h_2 =>
      cases hfound
      rw [hend (List.suffix_append ['f', 'a', 'l', 's', 'e'] left)] at hfalse
      exact absurd rfl hfalse
    case h_3 => exact (hmark ('{', '}') (by decide) rfl (hpairs hfound)).elim
    case h_4 => exact (hmark ('[', ']') (by decide) rfl (hitems hfound)).elim
    case h_5 =>
      obtain ⟨⟨t, left'⟩, htext, hfound⟩ := Option.map_eq_some_iff.mp hfound
      cases hfound
      exact (hmark ('"', '"') (by decide) rfl (suffix_text htext)).elim
    case h_6 =>
      split at hfound
      case h_1 c left' =>
        cases hfound
        exact (hmark ('\'', '\'') (by decide) rfl (List.suffix_cons c _)).elim
      case h_2 => cases hfound
    case h_7 =>
      cases hfound
      have hword : cs.takeWhile (!isSeparator ·) = cs :=
        List.takeWhile_eq_self_iff.mpr
          (List.dropWhile_eq_nil_iff.mp (hend (List.dropWhile_suffix _)))
      rw [hword, hs]
      exact word_of_not_isNumber htrim hnumber

/-- **A text that does not look like a literal stands for itself**, if there is no white
space around it. -/
theorem parse_of_not_looksLiteral {s : String} (htrim : Text.trim s.toList = s.toList)
    (hplain : looksLiteral s = false) : parse s = .string s := by
  unfold parse
  split
  case h_1 j hvalue => exact eq_string_of_value htrim hplain hvalue
  case h_2 => rfl

/-! ## No literal for nothing -/

/-- Items make an array. -/
theorem eq_array_of_items {acc : List Json} {j : Json} (h : items fuel acc cs = some (j, rest)) :
    ∃ js, j = .array js := by
  induction fuel generalizing acc cs with
  | zero => cases h
  | succ fuel ih =>
    unfold items at h
    split at h
    case h_1 =>
      cases h
      exact ⟨_, rfl⟩
    case h_2 =>
      split at h
      case h_1 => exact ih h
      case h_2 =>
        cases h
        exact ⟨_, rfl⟩
      case h_3 => cases h

/-- Names and values make an object. -/
theorem eq_object_of_pairs {acc : List (String × Json)} {j : Json}
    (h : pairs fuel acc cs = some (j, rest)) : ∃ members, j = .object members := by
  induction fuel generalizing acc cs with
  | zero => cases h
  | succ fuel ih =>
    unfold pairs at h
    split at h
    case h_1 =>
      cases h
      exact ⟨_, rfl⟩
    case h_2 =>
      split at h
      case h_1 => cases h
      case h_2 =>
        split at h
        case h_1 =>
          split at h
          case h_1 => exact ih h
          case h_2 =>
            cases h
            exact ⟨_, rfl⟩
          case h_3 => cases h
        case h_2 => cases h

/-- A bare word is a number or a text. -/
theorem word_ne_null (cs : List Char) : word cs ≠ .null := by
  unfold word
  dsimp only
  split <;> nofun

/-- **No text stands for nothing.** -/
theorem parse_ne_null (s : String) : parse s ≠ .null := by
  have hvalue {fuel : Nat} {cs rest : List Char} {j : Json}
      (h : value fuel cs = some (j, rest)) : j ≠ .null := by
    cases fuel with
    | zero => cases h
    | succ fuel =>
      unfold value at h
      obtain ⟨⟨found, left⟩, hfound, h⟩ := Option.map_eq_some_iff.mp h
      cases h
      split at hfound
      case h_3 =>
        obtain ⟨members, rfl⟩ := eq_object_of_pairs hfound
        nofun
      case h_4 =>
        obtain ⟨js, rfl⟩ := eq_array_of_items hfound
        nofun
      case h_5 =>
        obtain ⟨t, -, hfound⟩ := Option.map_eq_some_iff.mp hfound
        cases hfound
        nofun
      case h_6 =>
        split at hfound
        case h_1 =>
          cases hfound
          nofun
        case h_2 => cases hfound
      case h_7 =>
        cases hfound
        exact word_ne_null _
      all_goals
        cases hfound
        nofun
  unfold parse
  split
  case h_1 h => exact hvalue h
  case h_2 => nofun

/-! ## Any text in quotes -/

/-- The four digits of a number below `2^16`. -/
def fourDigits (n : Nat) : List Char :=
  [Hex.digit (n / 0x1000), Hex.digit (n / 0x100 % 0x10), Hex.digit (n / 0x10 % 0x10),
    Hex.digit (n % 0x10)]

/-- **A character escaped by its number**, which has eight digits. -/
def escaped (c : Char) : List Char :=
  '\\' :: 'U' :: (fourDigits (c.toNat / 0x10000) ++ fourDigits (c.toNat % 0x10000))

/-- **A text in quotes**, with all of its characters escaped. -/
def quoted (s : String) : String :=
  String.ofList ('"' :: (s.toList.flatMap escaped ++ ['"']))

theorem hexValue?_digit : ∀ n < 16, Json.Parser.hexValue? (Hex.digit n) = some n := by
  decide

/-- Four digits are read as the number that they are written of. -/
theorem codeUnit?_digits {n : Nat} (h : n < 0x10000) :
    Json.Parser.codeUnit? (Hex.digit (n / 0x1000)) (Hex.digit (n / 0x100 % 0x10))
      (Hex.digit (n / 0x10 % 0x10)) (Hex.digit (n % 0x10)) = some n := by
  have hsum : ((n / 0x1000 * 16 + n / 0x100 % 0x10) * 16 + n / 0x10 % 0x10) * 16 + n % 0x10
      = n := by omega
  unfold Json.Parser.codeUnit?
  rw [hexValue?_digit _ (by omega), hexValue?_digit _ (by omega), hexValue?_digit _ (by omega),
    hexValue?_digit _ (by omega)]
  exact congrArg some hsum

/-- Eight digits are read as two halves of a number. -/
theorem escape?_fourDigits {high low : Nat} (hhigh : high < 0x10000) (hlow : low < 0x10000)
    (rest : List Char) :
    escape? ('U' :: (fourDigits high ++ fourDigits low) ++ rest)
      = if (high * 0x10000 + low).isValidChar then some (Char.ofNat (high * 0x10000 + low), rest)
        else none := by
  show (do
    let n := (← Json.Parser.codeUnit? _ _ _ _) * 0x10000 + (← Json.Parser.codeUnit? _ _ _ _)
    if n.isValidChar then some (Char.ofNat n, rest) else none) = _
  rw [codeUnit?_digits hhigh, codeUnit?_digits hlow]
  rfl

/-- **An escaped character** is read as what it was. -/
theorem escape?_escaped (c : Char) (rest : List Char) :
    escape? ('U' :: (fourDigits (c.toNat / 0x10000) ++ fourDigits (c.toNat % 0x10000)) ++ rest)
      = some (c, rest) := by
  have hvalid : c.toNat.isValidChar := c.valid
  have hhigh : c.toNat / 0x10000 < 0x10000 := by
    have hlt : c.toNat < 2 ^ 32 := c.val.toNat_lt
    omega
  have hnumber : c.toNat / 0x10000 * 0x10000 + c.toNat % 0x10000 = c.toNat := by omega
  rw [escape?_fourDigits hhigh (Nat.mod_lt _ (by decide)), hnumber, if_pos hvalid,
    Char.ofNat_toNat]

/-- An escape is read, and then what is left behind it. -/
theorem escapedText_of_escape? {acc : List Char} {c : Char} (h : escape? cs = some (c, rest)) :
    escapedText (fuel + 1) acc ('\\' :: cs) = escapedText fuel (c :: acc) rest := by
  rw [escapedText, if_neg (by decide), if_pos rfl, h]

/-- **Escaped characters** up to a closing mark are read one by one. -/
theorem escapedText_escaped (ds acc : List Char) {fuel : Nat} (hfuel : ds.length < fuel) :
    escapedText fuel acc (ds.flatMap escaped ++ ['"'])
      = some (String.ofList (acc.reverse ++ ds), []) := by
  induction ds generalizing acc fuel with
  | nil =>
    obtain ⟨fuel, rfl⟩ := Nat.exists_eq_succ_of_ne_zero (Nat.ne_of_gt hfuel)
    rw [List.append_nil]
    rfl
  | cons c ds ih =>
    obtain ⟨fuel, rfl⟩ := Nat.exists_eq_succ_of_ne_zero (Nat.ne_of_gt (Nat.zero_lt_of_lt hfuel))
    have hescape := escape?_escaped c (ds.flatMap escaped ++ ['"'])
    rw [List.flatMap_cons, List.append_assoc]
    refine (escapedText_of_escape? hescape).trans ?_
    rw [ih (c :: acc) (Nat.lt_of_succ_lt_succ hfuel), List.reverse_cons, List.append_assoc,
      List.singleton_append]

/-- A text whose characters are all escaped has nothing in front of the first escape. -/
theorem text_escaped (ds : List Char) :
    text (ds.flatMap escaped ++ ['"']) = some (String.ofList ds, []) := by
  have hlength : ds.length < (ds.flatMap escaped ++ ['"']).length + 1 := by
    have hten (c : Char) : (escaped c).length = 10 := rfl
    rw [List.length_append, List.length_flatMap, List.map_congr_left fun c _ => hten c,
      List.map_const', List.sum_replicate_nat]
    omega
  have htext := escapedText_escaped ds [] hlength
  cases ds with
  | nil => rfl
  | cons c ds => exact htext

/-- **A text in quotes stands for what is quoted.** -/
theorem parse_quoted (s : String) : parse (quoted s) = .string s := by
  have htext := text_escaped s.toList
  unfold parse quoted
  rw [String.toList_ofList]
  have hvalue (fuel : Nat) : value (fuel + 1) ('"' :: (s.toList.flatMap escaped ++ ['"']))
      = some (.string s, []) := by
    show ((text _).map _).map _ = _
    rw [htext, String.ofList_toList]
    rfl
  rw [hvalue]

end Literal

end Enclave
