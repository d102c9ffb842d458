import Rinha.Binary64.Basic

/-!
# Arithmetic of double precision

A result is the exact one, rounded to the nearest number, ties to the even significand.  The exact
sum, product or remainder of two finite numbers is again an integer times a power of two, so it is
computed on integers first and rounded once.

## Main definitions

* `Binary64.ofInt?` -- the number nearest to an integer, if there is one.
* `Binary64.order?` -- the order of two numbers; not-a-number has none.
* `Binary64.add`, `Binary64.sub`, `Binary64.mul`, `Binary64.div` -- the four operations.
* `Binary64.truncMod` -- the remainder with the sign of the dividend, which is always exact.
* `Binary64.floorDiv`, `Binary64.floorMod` -- division that rounds down, and its remainder.
-/

namespace Rinha

namespace Binary64

/-- A zero of either sign. -/
def zero (negative : Bool) : Binary64 := .finite negative 0 minExponent

/-- The number one. -/
def one : Binary64 := .finite false (Nat.pow 2 52) (-52)

/-- The number one half. -/
def half : Binary64 := .finite false (Nat.pow 2 52) (-53)

/-- Whether a number is one of the two zeros. -/
def isZero : Binary64 → Bool
  | .finite _ m _ => m == 0
  | _ => false

/-- Whether a number has a minus sign, which a zero may have too. -/
def isNegative : Binary64 → Bool
  | .finite negative .. => negative
  | .infinite negative => negative
  | .nan => false

/-- Whether a number is less than zero. -/
def isBelowZero (x : Binary64) : Bool :=
  x.isNegative && !x.isZero

/-- A significand with a sign. -/
def signed (negative : Bool) (m : Nat) : Int :=
  if negative then -(m : Int) else m

/-- `a * 2 ^ e`, rounded.  A zero gets the sign that is asked for. -/
def ofDyadic (zeroNegative : Bool) (a e : Int) : Binary64 :=
  if a = 0 then zero zeroNegative
  else if 0 ≤ e then ofQuotient (a < 0) (a.natAbs * Nat.pow 2 e.toNat) 1
  else ofQuotient (a < 0) a.natAbs (Nat.pow 2 (-e).toNat)

/-- The number nearest to an integer, unless the integer is beyond all finite numbers. -/
def ofInt? (n : Int) : Option Binary64 :=
  match ofDyadic false n 0 with
  | .infinite _ => none
  | x => some x

/-- The integers `a'` and `b'` for which `a * 2 ^ e` and `b * 2 ^ f` are `a' * 2 ^ low` and
`b' * 2 ^ low`, where `low` is the lesser exponent. -/
def align (a e b f : Int) : Int × Int :=
  let low := min e f
  (a * Int.pow 2 (e - low).toNat, b * Int.pow 2 (f - low).toNat)

/-- How `a * 2 ^ e` is ordered against a number. -/
def orderDyadic? (a e : Int) : Binary64 → Option Ordering
  | .nan => none
  | .infinite negative => some (if negative then .gt else .lt)
  | .finite negative m f =>
    let (left, right) := align a e (signed negative m) f
    some (compare left right)

/-- How two numbers are ordered. -/
def order? : Binary64 → Binary64 → Option Ordering
  | .nan, _ | _, .nan => none
  | .infinite s, .infinite t => some (compare (!s) (!t))
  | .infinite s, _ => some (if s then .lt else .gt)
  | .finite s m e, y => orderDyadic? (signed s m) e y

/-- The number with the other sign. -/
def neg : Binary64 → Binary64
  | .finite negative m e => .finite (!negative) m e
  | .infinite negative => .infinite (!negative)
  | .nan => .nan

/-- The sum of two numbers.  A sum of zero is negative only if both numbers are. -/
def add : Binary64 → Binary64 → Binary64
  | .nan, _ | _, .nan => .nan
  | .infinite s, .infinite t => if s = t then .infinite s else .nan
  | .infinite s, _ => .infinite s
  | _, .infinite t => .infinite t
  | .finite s m e, .finite t n f =>
    let (left, right) := align (signed s m) e (signed t n) f
    ofDyadic (s && t) (left + right) (min e f)

/-- The difference of two numbers. -/
def sub (x y : Binary64) : Binary64 := x.add y.neg

/-- The product of two numbers. -/
def mul : Binary64 → Binary64 → Binary64
  | .nan, _ | _, .nan => .nan
  | .infinite s, y => if y.isZero then .nan else .infinite (s != y.isNegative)
  | x, .infinite t => if x.isZero then .nan else .infinite (x.isNegative != t)
  | .finite s m e, .finite t n f => ofDyadic (s != t) (signed s m * signed t n) (e + f)

/-- The quotient of two numbers. -/
def div : Binary64 → Binary64 → Binary64
  | .nan, _ | _, .nan => .nan
  | .infinite _, .infinite _ => .nan
  | .infinite s, y => .infinite (s != y.isNegative)
  | x, .infinite t => zero (x.isNegative != t)
  | .finite s m e, .finite t n f =>
    if n = 0 then if m = 0 then .nan else .infinite (s != t)
    else if m = 0 then zero (s != t)
    else
      let (num, den) := align m e n f
      ofQuotient (s != t) num.natAbs den.natAbs

/-- The remainder that has the sign of the dividend and is less than the divisor. -/
def truncMod : Binary64 → Binary64 → Binary64
  | .nan, _ | _, .nan | .infinite _, _ => .nan
  | x, .infinite _ => x
  | .finite s m e, .finite _ n f =>
    if n = 0 then .nan
    else
      let (left, right) := align (signed s m) e n f
      ofDyadic s (left.tmod right) (min e f)

/-- The greatest whole number that is not above a number. -/
def floor : Binary64 → Binary64
  | .finite negative m e =>
    if 0 ≤ e then .finite negative m e
    else ofDyadic negative ((signed negative m).fdiv (Int.pow 2 (-e).toNat)) 0
  | x => x

/-- The remainder with the sign of the divisor, which a remainder of zero has too. -/
def floorMod (x y : Binary64) : Binary64 :=
  let rest := x.truncMod y
  if rest.isZero then zero y.isNegative
  else if y.isBelowZero != rest.isBelowZero then rest.add y
  else rest

/-- The quotient rounded down to a whole number.  What is divided is the dividend less the exact
remainder, so that the division comes out at a whole number or next to one; the whole number at it
is taken. -/
def floorDiv (x y : Binary64) : Binary64 :=
  let rest := x.truncMod y
  let exact := (x.sub rest).div y
  let quotient :=
    if !rest.isZero && y.isBelowZero != rest.isBelowZero then exact.sub one else exact
  if quotient.isZero then zero (x.div y).isNegative
  else
    let below := quotient.floor
    if ((quotient.sub below).order? half).any Ordering.isGT then below.add one else below

end Binary64

end Rinha
