import Rinha.Json.Basic
import Rinha.Json.Template
import Rinha.Repetition

/-!
# Operations on data

Data can be compared and combined whatever it stands for.  Booleans count as the numbers one and
zero.  Texts are ordered by their code points and lists by the first items that differ.  Texts and
lists can be joined, and repeated a whole number of times.  The remainder of a text by data is the
text with its directives filled in from the data.

## Main definitions

* `Json.holds` -- whether a relation holds between data.
* `Json.combine` -- a function of arithmetic at data.
* `BinaryFunction`, `Json.apply` -- a relation or a function of arithmetic, and its result at data.
-/

namespace Rinha

namespace Json

mutual

/-- Whether a relation holds between data. -/
def holds (relation : Relation) (a b : Json) : Except Fault Bool :=
  match a, b with
  | .str s, .str t => .ok (relation.holds (compare s t))
  | .arr as, .arr bs => holdsItems relation as bs
  | a, b =>
    match a.number?, b.number? with
    | some x, some y => .ok (x.holds relation y)
    | _, _ => .error (.unordered relation.symbol a.typeName b.typeName)

/-- Whether a relation holds between two lists: between the first items that differ, or else between
the lengths. -/
def holdsItems (relation : Relation) (as bs : List Json) : Except Fault Bool :=
  match as, bs with
  | a :: as, b :: bs => if a.agrees b then holdsItems relation as bs else holds relation a b
  | [], [] => .ok (relation.holds .eq)
  | [], _ :: _ => .ok (relation.holds .lt)
  | _ :: _, [] => .ok (relation.holds .gt)

end

/-- A text or a list, repeated. -/
def repeated (data : Json) (count : Int) : Except Fault Json :=
  match data with
  | .str s => do
    return .str (String.join (List.replicate (← repetitions s.length count .tooLong) s))
  | .arr items => do
    return .arr (List.replicate (← repetitions items.length count .memory) items).flatten
  | data => .ok data

/-- Whether data is a text or a list. -/
def isSequence : Json → Bool
  | .str _ | .arr _ => true
  | _ => false

/-- Two texts or two lists, one after the other. -/
def joined : Json → Json → Except Fault Json
  | .str s, .str t => .ok (.str (s ++ t))
  | .arr as, .arr bs => .ok (.arr (as ++ bs))
  | a, b => .error (.unjoinable a.typeName b.typeName)

/-- The product of data that is not two numbers: something repeated. -/
def product (a b : Json) : Except Fault Json :=
  if a.isSequence then
    match b.number? with
    | some (.int count) => a.repeated count
    | _ => .error (.unrepeatable b.typeName)
  else if b.isSequence then
    match a.number? with
    | some (.int count) => b.repeated count
    | _ => .error (.unrepeatable a.typeName)
  else .error (.unsupported ArithmeticFunction.mul.symbol a.typeName b.typeName)

/-- A function of arithmetic at data. -/
def combine (f : ArithmeticFunction) (a b : Json) : Except Fault Json :=
  match a.number?, b.number? with
  | some x, some y => do return ofNumber (← f.onNumbers x y)
  | _, _ =>
    match f with
    | .add => if a.isSequence then a.joined b
      else .error (.unsupported f.symbol a.typeName b.typeName)
    | .mul => a.product b
    | .floorMod =>
      match a with
      | .str text => do return .str (← Template.fill text b)
      | _ => .error (.unsupported f.symbol a.typeName b.typeName)
    | _ => .error (.unsupported f.symbol a.typeName b.typeName)

end Json

/-- A function of two operands: a relation, or a function of arithmetic. -/
inductive BinaryFunction where
  | relation (relation : Relation)
  | arithmetic (function : ArithmeticFunction)
  deriving DecidableEq, Repr

/-- The sign that a function is written with. -/
def BinaryFunction.symbol : BinaryFunction → String
  | .relation r => r.symbol
  | .arithmetic f => f.symbol

/-- The result of a function at data; that of a relation is a truth value. -/
def Json.apply (f : BinaryFunction) (a b : Json) : Except Fault Json :=
  match f with
  | .relation r => do return .bool (← a.holds r b)
  | .arithmetic f => a.combine f b

end Rinha
