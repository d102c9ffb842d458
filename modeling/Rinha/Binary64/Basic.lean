/-!
# Binary floating-point numbers

The numbers with a fraction or an exponent that data may hold are IEEE 754 numbers of double
precision.  A finite one is kept as its sign, its integer significand and its exponent of two, so
that every operation on it is exact integer arithmetic.

## Main definitions

* `Binary64` -- a number of double precision.
* `Binary64.ofDecimal` -- the number nearest to `digits * 10 ^ exponent`, ties to the even
  significand.
-/

namespace Rinha

/-- A number of double precision.  A finite number is `± significand * 2 ^ exponent`, where the
significand has 53 bits, or fewer when the exponent is the least one. -/
inductive Binary64 where
  | finite (negative : Bool) (significand : Nat) (exponent : Int)
  | infinite (negative : Bool)
  | nan
  deriving DecidableEq, Repr, Inhabited

namespace Binary64

/-- The number of bits of a significand. -/
def precision : Nat := 53

/-- The exponent of two of the least positive number. -/
def minExponent : Int := -1074

/-- The exponent of two of the greatest finite number. -/
def maxExponent : Int := 971

/-- The number of binary digits of a natural number. -/
def bitLength (n : Nat) : Nat :=
  if n = 0 then 0 else n.log2 + 1

/-- The quotient of two natural numbers, rounded to the nearest one, ties to the even one. -/
def divideToEven (num den : Nat) : Nat :=
  let q := num / den
  let r := num % den
  if 2 * r < den then q
  else if den < 2 * r then q + 1
  else if q % 2 = 0 then q else q + 1

/-- The quotient `num / den * 2 ^ (-e)` as a pair of numerator and denominator. -/
def scaleByPower (num den : Nat) (e : Int) : Nat × Nat :=
  if 0 ≤ e then (num, den * Nat.pow 2 e.toNat) else (num * Nat.pow 2 (-e).toNat, den)

/-- The positive quotient `num / den` in double precision.  The exponent is chosen so that the
quotient scaled by it has `precision` bits before the point; one more step covers the case in
which the first guess leaves a bit too many or rounding carries into a new bit. -/
def ofQuotient (negative : Bool) (num den : Nat) : Binary64 :=
  let guess : Int := (bitLength num : Int) - bitLength den - precision
  let roundedAt (e : Int) : Nat :=
    let (n, d) := scaleByPower num den e
    divideToEven n d
  let lowest : Int := max guess minExponent
  let (m, e) :=
    if roundedAt lowest < Nat.pow 2 precision then (roundedAt lowest, lowest)
    else
      let e := lowest + 1
      let m := roundedAt e
      if m < Nat.pow 2 precision then (m, e) else (m / 2, e + 1)
  if m = 0 then .finite negative 0 minExponent
  else if e > maxExponent then .infinite negative
  else .finite negative m e

/-- The number nearest to `digits * 10 ^ exponent`.  Exponents far outside the range are settled by
the number of digits alone. -/
def ofDecimal (negative : Bool) (digits : Nat) (exponent : Int) : Binary64 :=
  if digits = 0 then .finite negative 0 minExponent
  else
    -- a number of `k` digits is at least `10 ^ (k - 1)` and below `10 ^ k`
    let magnitude : Int := (bitLength digits : Int) * 30103 / 100000 + exponent
    if magnitude > 400 then .infinite negative
    else if magnitude < -400 then .finite negative 0 minExponent
    else if 0 ≤ exponent then ofQuotient negative (digits * Nat.pow 10 exponent.toNat) 1
    else ofQuotient negative digits (Nat.pow 10 (-exponent).toNat)

end Binary64

end Rinha
