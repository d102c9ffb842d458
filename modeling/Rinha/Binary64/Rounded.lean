import Rinha.Binary64.Arithmetic
import Rinha.Binary64.Shortest

/-!
# Decimal text of a given precision

The text of a floating-point number with a given number of decimal places, or a given number of
digits.  The decimal is the nearest one to the exact value, ties to the even digit.

## Main definitions

* `Binary64.truncate?` -- the whole part of a number.
* `Layout` -- positional, scientific, or whichever of the two is shorter.
* `Binary64.magnitude` -- the text of a number without its sign.
-/

namespace Rinha

/-- How the digits of a number are laid out. -/
inductive Layout where
  /-- A given number of places after the point. -/
  | positional
  /-- One digit before the point and a given number after it, with an exponent of ten. -/
  | scientific
  /-- A given number of digits: positional unless the point would stand far from them. -/
  | general
  deriving DecidableEq, Repr

namespace Binary64

/-- The whole part of a finite number. -/
def truncate? : Binary64 → Option Int
  | .finite negative m e =>
    let (num, den) := toQuotient m e
    some (signed negative (num / den))
  | _ => none

/-- Digits with a point so many places from their end.  A point that nothing follows is written only
on request. -/
def withPoint (digits : List Char) (places : Nat) (keepPoint : Bool) : List Char :=
  let padded := List.replicate (places + 1 - digits.length) '0' ++ digits
  let whole := padded.take (padded.length - places)
  let fraction := padded.drop (padded.length - places)
  if fraction.isEmpty && !keepPoint then whole else whole ++ '.' :: fraction

/-- More digits than the exact value of any number has, on either side of its point. -/
def exactDigits : Nat := 1100

/-- The quotient `num / den` with the given number of places.  Those beyond the exact value are
zeros. -/
def positionalText (num den places : Nat) (keepPoint : Bool) : List Char :=
  let exact := min places exactDigits
  withPoint (Nat.toDigits 10 (divideToEven (num * Nat.pow 10 exact) den)) exact keepPoint ++
    List.replicate (places - exact) '0'

/-- The quotient `num / den`, rounded to one digit and the given number of places after it: the
digits, and the exponent of ten of the first one. -/
def roundedDigits (num den places : Nat) : Nat × Int :=
  if num = 0 then (0, 0)
  else
    let first := leadingExponent num den
    let (n, d) := scaleByTen num den (first - places)
    let digits := divideToEven n d
    if digits < Nat.pow 10 (places + 1) then (digits, first) else (digits / 10, first + 1)

/-- The quotient `num / den` as digits with a point after the first one, and the exponent of ten of
that one.  Places beyond the exact value are zeros. -/
def leadingText (num den places : Nat) (keepPoint : Bool) : List Char × Int :=
  let exact := min places exactDigits
  let (digits, exponent) := roundedDigits num den exact
  (withPoint (Nat.toDigits 10 digits) exact keepPoint ++ List.replicate (places - exact) '0',
    exponent)

/-- An exponent of ten, with its sign and at least two digits. -/
def exponentText (exponent : Int) : List Char :=
  let digits := Nat.toDigits 10 exponent.natAbs
  'e' :: (if exponent < 0 then '-' else '+') ::
    (if digits.length < 2 then '0' :: digits else digits)

/-- Text without the zeros at the end of its fraction, and without a point that nothing follows. -/
def trimmed (text : List Char) : List Char :=
  if text.contains '.' then
    let kept := (text.reverse.dropWhile (· == '0')).reverse
    if kept.getLast? == some '.' then kept.dropLast else kept
  else text

/-- The quotient `num / den` laid out with the given precision.  The general layout leaves out the
zeros at the end, unless the point is to be kept. -/
def quotientText (layout : Layout) (num den precision : Nat) (keepPoint : Bool) : List Char :=
  match layout with
  | .positional => positionalText num den precision keepPoint
  | .scientific =>
    let (digits, exponent) := leadingText num den precision keepPoint
    digits ++ exponentText exponent
  | .general =>
    let count := if keepPoint then max precision 1 else min (max precision 1) exactDigits
    let (digits, exponent) := leadingText num den (count - 1) keepPoint
    let trim (text : List Char) : List Char := if keepPoint then text else trimmed text
    if positionalFrom ≤ exponent && exponent < count then
      trim (positionalText num den (count - 1 - exponent).toNat keepPoint)
    else
      trim digits ++ exponentText exponent

/-- The text of a number without its sign. -/
def magnitude (layout : Layout) (precision : Nat) (keepPoint : Bool) : Binary64 → List Char
  | .nan => ['n', 'a', 'n']
  | .infinite _ => ['i', 'n', 'f']
  | .finite _ m e =>
    let (num, den) := toQuotient m e
    quotientText layout num den precision keepPoint

end Binary64

end Rinha
