import Rinha.Json.Basic
import Rinha.Source

/-!
# Reading data trees

The reader takes a text to the data tree that it spells.  Containers that are still open are held in
a list of frames, so that the nesting of the text is bounded by an explicit limit and by nothing
else.  Every refusal says why and where: the place is given by how much of the text was left.

Escapes stand for code points, and two of them may be the halves of one character.  Half a character
is no text here, so a string with one is not read as anything.

## Main definitions

* `Json.Reason` -- why a text spells no data, with its wording.
* `Json.Failure` -- a refusal: a reason with its position, nesting beyond the limit, a numeral with
  too many digits, or half a character.
* `Json.ReadLimits` -- how deeply containers may nest and how long an integer may be.
* `Json.parse` -- the data that a text spells.
-/

namespace Rinha

namespace Json

/-- Why a text spells no data. -/
inductive Reason where
  | byteOrderMark
  | expectingValue
  | extraData
  | expectingName
  | expectingColon
  | expectingComma
  | unterminatedString
  | controlCharacter
  | badEscape
  | badUnicodeEscape
  deriving DecidableEq, Repr

/-- The wording of a reason. -/
def Reason.message : Reason → String
  | .byteOrderMark => "Unexpected UTF-8 BOM (decode using utf-8-sig)"
  | .expectingValue => "Expecting value"
  | .extraData => "Extra data"
  | .expectingName => "Expecting property name enclosed in double quotes"
  | .expectingColon => "Expecting ':' delimiter"
  | .expectingComma => "Expecting ',' delimiter"
  | .unterminatedString => "Unterminated string starting at"
  | .controlCharacter => "Invalid control character at"
  | .badEscape => "Invalid \\escape"
  | .badUnicodeEscape => "Invalid \\uXXXX escape"

/-- A refusal of a text. -/
inductive Failure where
  /-- The text is no data, for a reason that shows when `remaining` characters are left. -/
  | malformed (reason : Reason) (remaining : Nat)
  /-- More containers are open at once than the limit allows. -/
  | tooDeep
  /-- An integer has too many digits. -/
  | digits (refusal : TooManyDigits)
  /-- A string has half of a character without the other half. -/
  | unpaired
  deriving DecidableEq, Repr

/-- How deeply containers may nest and how many digits an integer may have; without a bound, any. -/
structure ReadLimits where
  nesting : Option Nat := none
  digits : Option Nat := none

namespace Reader

/-- Whether a bound, if there is one, is passed. -/
def exceeds (bound : Option Nat) (n : Nat) : Bool :=
  match bound with
  | some limit => limit < n
  | none => false

/-- The blanks between the parts of data. -/
def isBlank (c : Char) : Bool :=
  c == ' ' || c == '\t' || c == '\n' || c == '\r'

/-- A text without the blanks in front. -/
def skipBlanks (text : List Char) : List Char :=
  text.dropWhile isBlank

/-- The value of a hexadecimal digit. -/
def hexValue? (c : Char) : Option Nat :=
  if '0' ≤ c && c ≤ '9' then some (c.toNat - '0'.toNat)
  else if 'a' ≤ c && c ≤ 'f' then some (c.toNat - 'a'.toNat + 10)
  else if 'A' ≤ c && c ≤ 'F' then some (c.toNat - 'A'.toNat + 10)
  else none

/-- The character that a one-letter escape stands for. -/
def escaped? (c : Char) : Option Char :=
  match c with
  | '\x22' => some '\x22'
  | '\\' => some '\\'
  | '/' => some '/'
  | 'b' => some '\x08'
  | 'f' => some '\x0c'
  | 'n' => some '\n'
  | 'r' => some '\r'
  | 't' => some '\t'
  | _ => none

/-- A code point that is the first half of a character. -/
def isHighSurrogate (code : Nat) : Bool :=
  0xD800 ≤ code && code ≤ 0xDBFF

/-- A code point that is the second half of a character. -/
def isLowSurrogate (code : Nat) : Bool :=
  0xDC00 ≤ code && code ≤ 0xDFFF

/-- The text of code points given last first, in which a high surrogate and the low one after it
are one character.  A surrogate that stands alone is no part of a text. -/
def textOfCodes? : List Char → List Nat → Option String
  | done, [] => some (String.ofList done)
  | done, [code] =>
    if isHighSurrogate code || isLowSurrogate code then none
    else some (String.ofList (Char.ofNat code :: done))
  | done, code :: earlier :: rest =>
    if isLowSurrogate code && isHighSurrogate earlier then
      textOfCodes? (Char.ofNat (0x10000 + (earlier - 0xD800) * 0x400 + (code - 0xDC00)) :: done)
        rest
    else if isHighSurrogate code || isLowSurrogate code then none
    else textOfCodes? (Char.ofNat code :: done) (earlier :: rest)

/-- Where a string is being read: among plain characters, after a backslash, or among the digits of
a code point, of which `left` are still to come after the next.  The text from the backslash or the
letter on is kept for a refusal. -/
inductive Inside where
  | plain
  | escape (place : List Char)
  | code (place : List Char) (left value : Nat)

/-- The rest of a string up to its closing quote, and the text after it.  The text from the opening
quote on is kept for a refusal, and the code points read so far are kept last first. -/
def scanString (opening : List Char) :
    Inside → List Nat → List Char → Except Failure (String × List Char)
  | .code place .., _, [] => .error (.malformed .badUnicodeEscape place.length)
  | _, _, [] => .error (.malformed .unterminatedString opening.length)
  | .plain, done, c :: rest =>
    if c == '\x22' then
      match textOfCodes? [] done with
      | some s => .ok (s, rest)
      | none => .error .unpaired
    else if c == '\\' then scanString opening (.escape (c :: rest)) done rest
    else if c.toNat < 0x20 then .error (.malformed .controlCharacter (rest.length + 1))
    else scanString opening .plain (c.toNat :: done) rest
  | .escape place, done, c :: rest =>
    if c == 'u' then scanString opening (.code (c :: rest) 3 0) done rest
    else
      match escaped? c with
      | some e => scanString opening .plain (e.toNat :: done) rest
      | none => .error (.malformed .badEscape place.length)
  | .code place left value, done, c :: rest =>
    match hexValue? c with
    | none => .error (.malformed .badUnicodeEscape place.length)
    | some d =>
      match left with
      | left + 1 => scanString opening (.code place left (16 * value + d)) done rest
      | 0 =>
        if rest.isEmpty then .error (.malformed .badUnicodeEscape place.length)
        else scanString opening .plain ((16 * value + d) :: done) rest

/-- A decimal digit. -/
def isDigit (c : Char) : Bool :=
  '0' ≤ c && c ≤ '9'

/-- The number that decimal digits stand for. -/
def valueOf (digits : List Char) : Nat :=
  digits.foldl (fun n c => 10 * n + (c.toNat - '0'.toNat)) 0

/-- The digits of the whole part of a number, and the text after them.  A zero in front stands
alone. -/
def wholePart? : List Char → Option (List Char × List Char)
  | '0' :: rest => some (['0'], rest)
  | c :: rest =>
    if isDigit c then some (c :: rest.takeWhile isDigit, rest.dropWhile isDigit) else none
  | [] => none

/-- The digits of a fraction, if a point and at least one digit follow, and the text after them. -/
def fraction (text : List Char) : List Char × List Char :=
  match text with
  | '.' :: rest =>
    let digits := rest.takeWhile isDigit
    if digits.isEmpty then ([], text) else (digits, rest.dropWhile isDigit)
  | _ => ([], text)

/-- The sign in front of the digits of an exponent. -/
def exponentSign : List Char → Bool × List Char
  | '-' :: rest => (true, rest)
  | '+' :: rest => (false, rest)
  | rest => (false, rest)

/-- The exponent of ten, if a mark and at least one digit follow, and the text after it. -/
def exponent? (text : List Char) : Option Int × List Char :=
  match text with
  | c :: rest =>
    if c == 'e' || c == 'E' then
      let (negative, body) := exponentSign rest
      let digits := body.takeWhile isDigit
      if digits.isEmpty then (none, text)
      else
        let n : Int := valueOf digits
        (some (if negative then -n else n), body.dropWhile isDigit)
    else (none, text)
  | [] => (none, text)

/-- A number whose sign has been read, and the text after it.  It is an integer unless a fraction
or an exponent follows. -/
def scanUnsigned? (limits : ReadLimits) (negative : Bool) (text : List Char) :
    Option (Except Failure Json × List Char) :=
  match wholePart? text with
  | none => none
  | some (whole, afterWhole) =>
    let (places, afterFraction) := fraction afterWhole
    let (power, rest) := exponent? afterFraction
    if places.isEmpty && power.isNone then
      if exceeds limits.digits whole.length then
        some (.error (.digits (.reading whole.length)), rest)
      else
        let n : Int := valueOf whole
        some (.ok (.int (if negative then -n else n)), rest)
    else
      let exponent : Int := power.getD 0 - places.length
      some (.ok (.real (Binary64.ofDecimal negative (valueOf (whole ++ places)) exponent)), rest)

/-- A value that is neither a string nor a container, and the text after it. -/
def scanScalar? (limits : ReadLimits) : List Char → Option (Except Failure Json × List Char)
  | 'n' :: 'u' :: 'l' :: 'l' :: rest => some (.ok .null, rest)
  | 't' :: 'r' :: 'u' :: 'e' :: rest => some (.ok (.bool true), rest)
  | 'f' :: 'a' :: 'l' :: 's' :: 'e' :: rest => some (.ok (.bool false), rest)
  | 'N' :: 'a' :: 'N' :: rest => some (.ok (.real .nan), rest)
  | 'I' :: 'n' :: 'f' :: 'i' :: 'n' :: 'i' :: 't' :: 'y' :: rest =>
    some (.ok (.real (.infinite false)), rest)
  | '-' :: 'I' :: 'n' :: 'f' :: 'i' :: 'n' :: 'i' :: 't' :: 'y' :: rest =>
    some (.ok (.real (.infinite true)), rest)
  | '-' :: rest => scanUnsigned? limits true rest
  | text => scanUnsigned? limits false text

/-- The name of a field with its colon, and the text of its value. -/
def scanName (text : List Char) : Except Failure (String × List Char) :=
  match text with
  | '\x22' :: rest =>
    match scanString text .plain [] rest with
    | .error failure => .error failure
    | .ok (name, after) =>
      match skipBlanks after with
      | ':' :: rest => .ok (name, skipBlanks rest)
      | other => .error (.malformed .expectingColon other.length)
  | other => .error (.malformed .expectingName other.length)

/-! ### What a scan leaves is shorter than what it was given -/

theorem length_skipBlanks_le (text : List Char) : (skipBlanks text).length ≤ text.length :=
  (List.dropWhile_suffix _).length_le

theorem length_dropWhile_le (p : Char → Bool) (text : List Char) :
    (text.dropWhile p).length ≤ text.length :=
  (List.dropWhile_suffix _).length_le

theorem length_scanString_lt {opening : List Char} {state : Inside} {done : List Nat}
    {text rest : List Char} {s : String}
    (h : scanString opening state done text = .ok (s, rest)) : rest.length < text.length := by
  fun_induction scanString opening state done text <;> grind

theorem length_wholePart?_lt {text whole rest : List Char}
    (h : wholePart? text = some (whole, rest)) : rest.length < text.length := by
  unfold wholePart? at h
  split at h
  · cases h
    exact Nat.lt_succ_self _
  · split at h
    · cases h
      exact Nat.lt_succ_of_le (length_dropWhile_le _ _)
    · cases h
  · cases h

theorem length_fraction_le (text : List Char) : (fraction text).2.length ≤ text.length := by
  unfold fraction
  split
  · dsimp only
    split
    · exact Nat.le_refl _
    · exact Nat.le_succ_of_le (length_dropWhile_le _ _)
  · exact Nat.le_refl _

theorem length_exponentSign_le (text : List Char) :
    (exponentSign text).2.length ≤ text.length := by
  unfold exponentSign
  split
  · exact Nat.le_succ _
  · exact Nat.le_succ _
  · exact Nat.le_refl _

theorem length_exponent?_le (text : List Char) : (exponent? text).2.length ≤ text.length := by
  unfold exponent?
  split
  · next c rest =>
    split
    · dsimp only
      split
      · exact Nat.le_refl _
      · exact Nat.le_succ_of_le
          (Nat.le_trans (length_dropWhile_le _ _) (length_exponentSign_le rest))
    · exact Nat.le_refl _
  · exact Nat.le_refl _

theorem length_scanUnsigned?_lt {limits : ReadLimits} {negative : Bool}
    {text rest : List Char} {result : Except Failure Json}
    (h : scanUnsigned? limits negative text = some (result, rest)) :
    rest.length < text.length := by
  unfold scanUnsigned? at h
  split at h
  · cases h
  · next whole after hw =>
    have shorter : (exponent? (fraction after).2).2.length < text.length :=
      Nat.lt_of_le_of_lt
        (Nat.le_trans (length_exponent?_le _) (length_fraction_le _)) (length_wholePart?_lt hw)
    dsimp only at h
    split at h
    · split at h
      · cases h
        exact shorter
      · cases h
        exact shorter
    · cases h
      exact shorter

theorem length_scanScalar?_lt {limits : ReadLimits} {text rest : List Char}
    {result : Except Failure Json} (h : scanScalar? limits text = some (result, rest)) :
    rest.length < text.length := by
  unfold scanScalar? at h
  split at h
  case h_7 => exact Nat.lt_succ_of_lt (length_scanUnsigned?_lt h)
  case h_8 => exact length_scanUnsigned?_lt h
  all_goals
    cases h
    simp only [List.length_cons]
    omega

theorem length_scanName_lt {text rest : List Char} {name : String}
    (h : scanName text = .ok (name, rest)) : rest.length < text.length := by
  unfold scanName at h
  split at h
  · next tail =>
    split at h
    · cases h
    · next s after hs =>
      split at h
      · next rest' heq =>
        cases h
        have h₁ := length_scanString_lt hs
        have h₂ := length_skipBlanks_le after
        have h₃ := length_skipBlanks_le rest'
        rw [heq, List.length_cons] at h₂
        rw [List.length_cons]
        omega
      · cases h
  · cases h

/-! ### The reader -/

/-- A container that is still open, with what it holds so far: the items of a list, last first, or
the fields of an object and the name of the one whose value is being read. -/
inductive Frame where
  | arr (items : List Json)
  | obj (fields : List (String × Json)) (name : String)

/-- What the reader does next: read a value, or go on after one. -/
inductive Stage where
  | value
  | after (value : Json)

/-- Reads on from a place in the text at which no blank stands before a value, inside the given
open containers, of which there are `depth`. -/
def read (limits : ReadLimits) (depth : Nat) (stage : Stage) (stack : List Frame)
    (text : List Char) : Except Failure (Json × List Char) :=
  match stage with
  | .value =>
    match text with
    | '\x22' :: rest =>
      match h : scanString text .plain [] rest with
      | .error failure => .error failure
      | .ok (s, after) =>
        have := length_scanString_lt h
        read limits depth (.after (.str s)) stack after
    | '[' :: rest =>
      have := length_skipBlanks_le rest
      if exceeds limits.nesting (depth + 1) then .error .tooDeep
      else
        match h : skipBlanks rest with
        | ']' :: after => read limits depth (.after (.arr [])) stack after
        | after => read limits (depth + 1) .value (.arr [] :: stack) after
    | '\x7b' :: rest =>
      have := length_skipBlanks_le rest
      if exceeds limits.nesting (depth + 1) then .error .tooDeep
      else
        match _h : skipBlanks rest with
        | '\x7d' :: after => read limits depth (.after (.obj [])) stack after
        | after =>
          match hn : scanName after with
          | .error failure => .error failure
          | .ok (name, after') =>
            have := length_scanName_lt hn
            read limits (depth + 1) .value (.obj [] name :: stack) after'
    | other =>
      match h : scanScalar? limits other with
      | none => .error (.malformed .expectingValue other.length)
      | some (.error failure, _) => .error failure
      | some (.ok value, after) =>
        have := length_scanScalar?_lt h
        read limits depth (.after value) stack after
  | .after value =>
    have := length_skipBlanks_le text
    match stack with
    | [] => .ok (value, text)
    | .arr items :: outer =>
      match h : skipBlanks text with
      | ']' :: after => read limits (depth - 1) (.after (.arr (value :: items).reverse)) outer after
      | ',' :: after =>
        have := length_skipBlanks_le after
        read limits depth .value (.arr (value :: items) :: outer) (skipBlanks after)
      | other => .error (.malformed .expectingComma other.length)
    | .obj fields name :: outer =>
      match h : skipBlanks text with
      | '\x7d' :: after =>
        read limits (depth - 1) (.after (.obj (insert name value fields))) outer after
      | ',' :: after =>
        have := length_skipBlanks_le after
        match hn : scanName (skipBlanks after) with
        | .error failure => .error failure
        | .ok (next, after') =>
          have := length_scanName_lt hn
          read limits depth .value (.obj (insert name value fields) next :: outer) after'
      | other => .error (.malformed .expectingComma other.length)
termination_by text.length
decreasing_by all_goals grind

end Reader

/-- The data that a text spells, with nothing but blanks around it. -/
def parse (limits : ReadLimits) (text : List Char) : Except Failure Json :=
  if text.head? == some '\ufeff' then .error (.malformed .byteOrderMark text.length)
  else
    match Reader.read limits 0 .value [] (Reader.skipBlanks text) with
    | .error failure => .error failure
    | .ok (value, rest) =>
      match Reader.skipBlanks rest with
      | [] => .ok value
      | other => .error (.malformed .extraData other.length)

end Json

end Rinha
