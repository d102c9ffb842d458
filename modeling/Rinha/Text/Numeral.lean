/-!
# Numerals written by people

An integer on a command line may be padded with blanks, may carry a sign, may group its digits by
single underscores, and may use the decimal digits of any script.  This module reads such numerals.

## Main definitions

* `digitValue?` -- the value of a decimal digit of any script.
* `isBlank` -- the blanks that may surround a numeral.
* `readInteger?` -- the integer that a numeral stands for.
-/

namespace Rinha.Text

/-- The code point of the digit zero in every script that has decimal digits.  The other nine
digits of a script follow its zero. -/
def zeroDigits : List Nat := [
  0x30, 0x660, 0x6f0, 0x7c0, 0x966, 0x9e6, 0xa66, 0xae6, 0xb66, 0xbe6, 0xc66, 0xce6, 0xd66, 0xde6,
  0xe50, 0xed0, 0xf20, 0x1040, 0x1090, 0x17e0, 0x1810, 0x1946, 0x19d0, 0x1a80, 0x1a90, 0x1b50,
  0x1bb0, 0x1c40, 0x1c50, 0xa620, 0xa8d0, 0xa900, 0xa9d0, 0xa9f0, 0xaa50, 0xabf0, 0xff10, 0x104a0,
  0x10d30, 0x11066, 0x110f0, 0x11136, 0x111d0, 0x112f0, 0x11450, 0x114d0, 0x11650, 0x116c0,
  0x11730, 0x118e0, 0x11950, 0x11c50, 0x11d50, 0x11da0, 0x16a60, 0x16ac0, 0x16b50, 0x1d7ce,
  0x1d7d8, 0x1d7e2, 0x1d7ec, 0x1d7f6, 0x1e140, 0x1e2f0, 0x1e950, 0x1fbf0]

/-- The value of a decimal digit, in whatever script it is written. -/
def digitValue? (c : Char) : Option Nat :=
  (zeroDigits.find? fun least => least ≤ c.toNat && c.toNat < least + 10).map (c.toNat - ·)

/-- A decimal digit of any script. -/
def isDecimalDigit (c : Char) : Bool :=
  (digitValue? c).isSome

/-- The ranges of the blanks that may stand before and after a numeral. -/
def blankRanges : List (Nat × Nat) := [
  (0x9, 0xd), (0x20, 0x20), (0x85, 0x85), (0xa0, 0xa0), (0x1680, 0x1680), (0x2000, 0x200a),
  (0x2028, 0x2029), (0x202f, 0x202f), (0x205f, 0x205f), (0x3000, 0x3000)]

/-- A blank that may stand before or after a numeral. -/
def isBlank (c : Char) : Bool :=
  blankRanges.any fun range => range.1 ≤ c.toNat && c.toNat ≤ range.2

/-- A text without the blanks at its two ends. -/
def trimBlanks (text : List Char) : List Char :=
  ((text.dropWhile isBlank).reverse.dropWhile isBlank).reverse

/-- Digits that may be grouped by single underscores, read after the digits already in `done`,
which are kept last first.  An underscore needs a digit on either side. -/
def readDigits? : List Nat → List Char → Option (List Nat)
  | done, [] => some done
  | done, c :: rest =>
    match digitValue? c with
    | some d => readDigits? (d :: done) rest
    | none =>
      if c == '_' && !done.isEmpty then
        match rest with
        | [] => none
        | next :: rest' =>
          match digitValue? next with
          | some d => readDigits? (d :: done) rest'
          | none => none
      else none

/-- The number that digits stand for, last digit first. -/
def valueOfDigits (digits : List Nat) : Nat :=
  digits.foldr (fun d n => 10 * n + d) 0

/-- The integer that a numeral stands for: blanks around it, one sign in front, at least one digit
and at most `maxDigits` of them. -/
def readInteger? (maxDigits : Nat) (text : String) : Option Int :=
  let unsigned (body : List Char) : Option Nat :=
    match readDigits? [] body with
    | some [] => none
    | some digits => if digits.length ≤ maxDigits then some (valueOfDigits digits) else none
    | none => none
  match trimBlanks text.toList with
  | '-' :: body => (unsigned body).map fun n => -(n : Int)
  | '+' :: body => (unsigned body).map Int.ofNat
  | body => (unsigned body).map Int.ofNat

end Rinha.Text
