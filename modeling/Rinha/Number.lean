import Rinha.Binary64.Arithmetic
import Rinha.Fault

/-!
# Numbers

A number of the data that programs are written in is an integer of any size or a floating-point
number.  Numbers of both kinds are ordered by their exact values.  Integers are computed with
exactly; as soon as one operand is a floating-point number, so is the result.

## Main definitions

* `Relation` -- the four ways of comparing.
* `ArithmeticFunction` -- the functions of arithmetic.
* `Number`, `Number.order?` -- a number, and the order of two numbers.
* `ArithmeticFunction.onNumbers` -- a function of arithmetic at two numbers.
-/

namespace Rinha

/-- The four ways of comparing. -/
inductive Relation where
  | lt | le | gt | ge
  deriving DecidableEq, Repr

namespace Relation

/-- Whether a relation holds between operands ordered in the given way. -/
def holds : Relation → Ordering → Bool
  | .lt, order => order.isLT
  | .le, order => order.isLE
  | .gt, order => order.isGT
  | .ge, order => order.isGE

/-- The sign that a relation is written with. -/
def symbol : Relation → String
  | .lt => "<"
  | .le => "<="
  | .gt => ">"
  | .ge => ">="

end Relation

/-- The functions of arithmetic.  Division rounds down, and the remainder has the sign of the
divisor. -/
inductive ArithmeticFunction where
  | add | sub | mul | floorDiv | floorMod
  deriving DecidableEq, Repr

namespace ArithmeticFunction

/-- The sign that a function is written with. -/
def symbol : ArithmeticFunction → String
  | .add => "+"
  | .sub => "-"
  | .mul => "*"
  | .floorDiv => "//"
  | .floorMod => "%"

/-- Whether a function divides by its second operand. -/
def divides : ArithmeticFunction → Bool
  | .floorDiv | .floorMod => true
  | _ => false

/-- A function of arithmetic at two integers. -/
def onInt : ArithmeticFunction → Int → Int → Int
  | .add, a, b => a + b
  | .sub, a, b => a - b
  | .mul, a, b => a * b
  | .floorDiv, a, b => a.fdiv b
  | .floorMod, a, b => a.fmod b

/-- A function of arithmetic at two floating-point numbers. -/
def onReal : ArithmeticFunction → Binary64 → Binary64 → Binary64
  | .add, x, y => x.add y
  | .sub, x, y => x.sub y
  | .mul, x, y => x.mul y
  | .floorDiv, x, y => x.floorDiv y
  | .floorMod, x, y => x.floorMod y

end ArithmeticFunction

/-- A number: an integer, or a floating-point number. -/
inductive Number where
  | int (value : Int)
  | real (value : Binary64)
  deriving DecidableEq, Repr, Inhabited

namespace Number

/-- How two numbers are ordered by their exact values; not-a-number has no order. -/
def order? : Number → Number → Option Ordering
  | .int a, .int b => some (compare a b)
  | .int a, .real y => Binary64.orderDyadic? a 0 y
  | .real x, .int b => (Binary64.orderDyadic? b 0 x).map Ordering.swap
  | .real x, .real y => x.order? y

/-- Whether two numbers are of one value. -/
def equal (x y : Number) : Bool :=
  x.order? y == some .eq

/-- Whether a relation holds between two numbers.  None holds with not-a-number. -/
def holds (relation : Relation) (x y : Number) : Bool :=
  (x.order? y).any relation.holds

/-- A number as a floating-point number. -/
def toReal : Number → Except Fault Binary64
  | .int n =>
    match Binary64.ofInt? n with
    | some x => .ok x
    | none => .error .beyondReal
  | .real x => .ok x

end Number

/-- A function of arithmetic at two numbers. -/
def ArithmeticFunction.onNumbers (f : ArithmeticFunction) :
    Number → Number → Except Fault Number
  | .int a, .int b =>
    if f.divides && b == 0 then .error (.integerByZero (f == .floorMod))
    else .ok (.int (f.onInt a b))
  | x, y => do
    let x ← x.toReal
    let y ← y.toReal
    if f.divides && y.isZero then .error (.realByZero (f == .floorMod))
    else .ok (.real (f.onReal x y))

end Rinha
