import Rinha.Binary64.Basic

/-!
# Shortest decimal text

The text of a floating-point number has the fewest decimal digits that read back as that number,
and of several such texts the nearest one.  It is positional while the decimal point stays close to
the digits, and scientific beyond.

## Main definitions

* `Binary64.shortest` -- the digits and the exponent of ten of the shortest decimal.
* `Binary64.text` -- the text of a number.
-/

namespace Rinha

namespace Binary64

/-- A decimal `digits * 10 ^ exponent`. -/
structure Decimal where
  digits : Nat
  exponent : Int
  deriving DecidableEq, Repr

/-- The exponent of ten of the first digit of the positive quotient `num / den`. -/
def leadingExponent (num den : Nat) : Int :=
  let guess : Int := ((bitLength num : Int) - bitLength den) * 30103 / 100000
  let atLeastPower (k : Int) : Bool :=
    if 0 ≤ k then den * Nat.pow 10 k.toNat ≤ num else den ≤ num * Nat.pow 10 (-k).toNat
  if atLeastPower (guess + 1) then guess + 1
  else if atLeastPower guess then guess
  else guess - 1

/-- The quotient `num / den * 10 ^ (-unit)` as a pair of numerator and denominator. -/
def scaleByTen (num den : Nat) (unit : Int) : Nat × Nat :=
  if 0 ≤ unit then (num, den * Nat.pow 10 unit.toNat) else (num * Nat.pow 10 (-unit).toNat, den)

/-- The number `m * 2 ^ e` as a pair of numerator and denominator. -/
def toQuotient (m : Nat) (e : Int) : Nat × Nat :=
  if 0 ≤ e then (m * Nat.pow 2 e.toNat, 1) else (m, Nat.pow 2 (-e).toNat)

/-- The first decimal with `count` digits or fewer that reads back as `m * 2 ^ e`: of the two
neighbours of the number on the grid of that many digits, one that reads back, the nearer one if
both do, the even one if they are equally near. -/
def onGrid? (m : Nat) (e : Int) (count : Nat) : Option Decimal :=
  let (num, den) := toQuotient m e
  let unit : Int := leadingExponent num den - ((count : Int) - 1)
  let (n, d) := scaleByTen num den unit
  let low := n / d
  let rest := n % d
  let readsBack (digits : Nat) : Bool := ofDecimal false digits unit == .finite false m e
  let lowFits := readsBack low
  let highFits := readsBack (low + 1)
  if lowFits && (rest = 0 || !highFits || 2 * rest < d || (2 * rest = d && low % 2 = 0)) then
    some ⟨low, unit⟩
  else if highFits then some ⟨low + 1, unit⟩
  else none

/-- The shortest decimal that reads back as the positive number `m * 2 ^ e`; seventeen digits
always do. -/
def shortest (m : Nat) (e : Int) : Decimal :=
  match (List.range 17).findSome? fun k => onGrid? m e (k + 1) with
  | some decimal => decimal
  | none => ⟨m, e⟩

/-- A decimal without the zeros at the end of its digits.  Each step drops one digit, so as many
steps as there are digits are enough. -/
def stripZeros : Nat → Decimal → Decimal
  | 0, decimal => decimal
  | steps + 1, ⟨digits, exponent⟩ =>
    if digits ≠ 0 && digits % 10 = 0 then stripZeros steps ⟨digits / 10, exponent + 1⟩
    else ⟨digits, exponent⟩

/-- The exponent of ten from which on the text of a number is scientific. -/
def scientificFrom : Int := 16

/-- The exponent of ten of the least numbers whose text is positional. -/
def positionalFrom : Int := -4

/-- The text of a positive decimal.  Scientific text marks the exponent with its sign and at least
two digits; positional text has at least one digit on either side of the point. -/
def Decimal.text (decimal : Decimal) : String :=
  let ⟨digits, exponent⟩ := stripZeros 20 decimal
  let ds := (toString digits).toList
  let first : Int := exponent + ds.length - 1
  if first < positionalFrom || scientificFrom ≤ first then
    let fraction := if ds.length ≤ 1 then [] else '.' :: ds.drop 1
    let power := toString first.natAbs
    let padded := if power.length < 2 then "0" ++ power else power
    String.ofList (ds.take 1 ++ fraction) ++ "e" ++ (if first < 0 then "-" else "+") ++ padded
  else if first < 0 then
    "0." ++ String.ofList (List.replicate ((-first).toNat - 1) '0' ++ ds)
  else
    let whole := first.toNat + 1
    if ds.length ≤ whole then
      String.ofList (ds ++ List.replicate (whole - ds.length) '0') ++ ".0"
    else String.ofList (ds.take whole) ++ "." ++ String.ofList (ds.drop whole)

/-- The text of a number of double precision. -/
def text : Binary64 → String
  | .nan => "nan"
  | .infinite negative => if negative then "-inf" else "inf"
  | .finite negative m e =>
    let magnitude := if m = 0 then "0.0" else (shortest m e).text
    if negative then "-" ++ magnitude else magnitude

end Binary64

end Rinha
