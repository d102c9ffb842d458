import Rinha.Text.Printable

/-!
# Quoted text

The way a piece of text is shown between quotes so that every character of it can be told apart.
Single quotes are used unless the text holds a single quote and no double quote.  A backslash, the
quote in use, and the line feed, carriage return and tab are written as two-character escapes; any
other character that is not printable is written by its code point in hexadecimal, with two, four
or eight digits, whichever fits first.

## Main definitions

* `quote` -- the quoted form of a text.
* `Quoted.escape` -- the form of a single character inside given quotes.
-/

namespace Rinha.Text

namespace Quoted

/-- The single quote. -/
def single : Char := '\x27'

/-- The double quote. -/
def double : Char := '\x22'

/-- The lower-case hexadecimal digit of a number below sixteen. -/
def hexDigit (n : Nat) : Char :=
  if n < 10 then Char.ofNat ('0'.toNat + n) else Char.ofNat ('a'.toNat + (n - 10))

/-- The last `width` hexadecimal digits of a number, most significant first. -/
def hexDigits : Nat → Nat → List Char
  | 0, _ => []
  | width + 1, n => hexDigits width (n / 16) ++ [hexDigit (n % 16)]

/-- A character by its code point: the shortest of the three widths that fits. -/
def codePoint (c : Char) : List Char :=
  let n := c.toNat
  if n < 0x100 then '\\' :: 'x' :: hexDigits 2 n
  else if n < 0x10000 then '\\' :: 'u' :: hexDigits 4 n
  else '\\' :: 'U' :: hexDigits 8 n

/-- One character as it stands between the given quotes. -/
def escape (mark c : Char) : List Char :=
  if c == '\\' then ['\\', '\\']
  else if c == mark then ['\\', c]
  else if c == '\n' then ['\\', 'n']
  else if c == '\r' then ['\\', 'r']
  else if c == '\t' then ['\\', 't']
  else if isPrintable c then [c]
  else codePoint c

/-- The quote that a text is put in: the double one only for a text that holds a single quote and
no double quote. -/
def markFor (text : List Char) : Char :=
  if text.contains single && !text.contains double then double else single

end Quoted

/-- A text between quotes, with everything escaped that would not show. -/
def quote (text : String) : String :=
  let chars := text.toList
  let mark := Quoted.markFor chars
  String.ofList (mark :: chars.flatMap (Quoted.escape mark) ++ [mark])

end Rinha.Text
