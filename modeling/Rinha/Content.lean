import Rinha.Json.Operation
import Rinha.Value

/-!
# The contents of values

Apart from functions, a value is its type and its content: data, or the two components of a pair.
Functions of two operands work on contents.  What comes out is content again, which is then given a
type, and need not be what values of that type hold otherwise.

## Main definitions

* `Content`, `Value.content?` -- data or a row of values, and the content of a value.
* `Content.apply` -- the result of a function at two contents.
* `Tagged` -- content under a type.
* `Tagged.value?` -- the value that it is, if it is one.
-/

namespace Rinha

/-- What a value holds: data, or a row of values. -/
inductive Content where
  | data (payload : Json)
  | row (items : List Value)
  deriving Inhabited

/-- The content of a value; a function has none. -/
def Value.content? : Value → Option Content
  | .int value => some (.data (.int value))
  | .str value => some (.data (.str value))
  | .bool value => some (.data (.bool value))
  | .tuple left right => some (.row [left, right])
  | .foreign _ payload => some (.data payload)
  | .closure .. => none

namespace Content

/-- The name under which messages refer to a kind of content. -/
def typeName : Content → String
  | .data payload => payload.typeName
  | .row _ => "tuple"

/-- Whether content counts as zero. -/
def isZero : Content → Bool
  | .data payload => payload.same (.int 0)
  | .row _ => false

/-- Whether a relation holds between two rows of values: between the lengths, unless two values
differ.  Values can be told apart, but they are not ordered. -/
def rowsHold (relation : Relation) : List Value → List Value → Except Fault Bool
  | x :: xs, y :: ys =>
    if x.alike y then rowsHold relation xs ys
    else .error (.unordered relation.symbol "dict" "dict")
  | [], [] => .ok (relation.holds .eq)
  | [], _ :: _ => .ok (relation.holds .lt)
  | _ :: _, [] => .ok (relation.holds .gt)

/-- The result of a function at two contents.  Rows of values can be compared and joined. -/
def apply (f : BinaryFunction) (x y : Content) : Except Fault Content :=
  match f, x, y with
  | f, .data a, .data b => do return .data (← a.apply f b)
  | .relation r, .row xs, .row ys => do return .data (.bool (← rowsHold r xs ys))
  | .arithmetic .add, .row xs, .row ys => .ok (.row (xs ++ ys))
  | .arithmetic .mul, .row _, y => .error (.unrepeatable y.typeName)
  | .relation r, x, y => .error (.unordered r.symbol x.typeName y.typeName)
  | .arithmetic f, x, y => .error (.unsupported f.symbol x.typeName y.typeName)

end Content

/-- Content under a type. -/
structure Tagged where
  tag : String
  content : Content
  deriving Inhabited

/-- The value that content under a type is: of the type if it holds what values of the type hold,
and tagged data otherwise.  A row is a value only if it is a pair. -/
def Tagged.value? (tagged : Tagged) : Option Value :=
  match tagged.tag, tagged.content with
  | "Int", .data (.int value) => some (.int value)
  | "Str", .data (.str value) => some (.str value)
  | "Bool", .data (.bool value) => some (.bool value)
  | tag, .data payload => some (.foreign tag payload)
  | "Tuple", .row [left, right] => some (.tuple left right)
  | _, .row _ => none

end Rinha
