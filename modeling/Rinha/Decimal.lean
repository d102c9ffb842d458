/-!
# Decimal text of integers

Integers are unbounded, their decimal text is not: an integer of more than `digitLimit` digits is
never written out in decimal, and a numeral of more digits is never read.  Both refusals are values
of `TooManyDigits`.

## Main definitions

* `digitLimit` -- the greatest number of decimal digits that are read or written.
* `TooManyDigits` -- the refusal to convert, with its wording.
* `decimal` -- the decimal text of an integer.
-/

namespace Rinha

/-- The greatest number of decimal digits that are read or written. -/
def digitLimit : Nat := 4300

/-- The least natural number whose decimal text is refused. -/
def decimalBound : Nat := Nat.pow 10 digitLimit

/-- The refusal to convert between an integer and its decimal text. -/
inductive TooManyDigits where
  /-- An integer has too many digits to be written. -/
  | writing
  /-- A numeral of the given number of digits is too long to be read. -/
  | reading (digits : Nat)
  deriving DecidableEq, Repr

/-- The wording of a refused conversion. -/
def TooManyDigits.message : TooManyDigits → String
  | .writing =>
    "Exceeds the limit (4300 digits) for integer string conversion; " ++
      "use sys.set_int_max_str_digits() to increase the limit"
  | .reading digits =>
    "Exceeds the limit (4300 digits) for integer string conversion: value has " ++
      toString digits ++ " digits; use sys.set_int_max_str_digits() to increase the limit"

/-- The decimal text of an integer, with a minus sign in front of a negative one. -/
def decimalText (n : Int) : String :=
  if n < 0 then "-" ++ toString n.natAbs else toString n.natAbs

/-- The decimal text of an integer, unless it has too many digits. -/
def decimal (n : Int) : Except TooManyDigits String :=
  if n.natAbs < decimalBound then .ok (decimalText n) else .error .writing

/-- An integer below the bound has its decimal text. -/
theorem decimal_of_lt {n : Int} (h : n.natAbs < decimalBound) : decimal n = .ok (decimalText n) :=
  if_pos h

/-- The text of an integer is refused exactly from the bound on. -/
theorem decimal_eq_error_iff (n : Int) :
    decimal n = .error .writing ↔ decimalBound ≤ n.natAbs := by
  unfold decimal
  split
  · next h => simpa using h
  · next h => simpa using h

end Rinha
