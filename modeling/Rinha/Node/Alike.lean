import Rinha.Node.Basic

/-!
# Likeness of trees

Two trees are alike if they have the same shape, the same names and literals, and the same
locations.  Offsets are compared by the numbers that they count as.

## Main definitions

* `Location.alike` -- likeness of locations.
* `Node.alike` -- likeness of trees.
-/

namespace Rinha

/-- Whether two locations are of one file and one span. -/
def Location.alike (a b : Location) : Bool :=
  a.start.toInt == b.start.toInt && a.stop.toInt == b.stop.toInt && a.filename == b.filename

/-- Whether two locations are alike, or both are unknown. -/
def Location.alike? : Option Location → Option Location → Bool
  | none, none => true
  | some a, some b => a.alike b
  | _, _ => false

namespace Node

mutual

/-- Whether two trees are alike. -/
def alike : Node → Node → Bool
  | .str a l, .str b m => a == b && Location.alike? l m
  | .int a l, .int b m => a == b && Location.alike? l m
  | .bool a l, .bool b m => a == b && Location.alike? l m
  | .print a l, .print b m => a.alike b && Location.alike? l m
  | .letIn n a b l, .letIn k c d m =>
    n == k && a.alike c && b.alike d && Location.alike? l m
  | .var n l, .var k m => n == k && Location.alike? l m
  | .cond a b c l, .cond d e f m =>
    a.alike d && b.alike e && c.alike f && Location.alike? l m
  | .function ps a l, .function qs b m => ps == qs && a.alike b && Location.alike? l m
  | .call a as l, .call b bs m => a.alike b && allAlike as bs && Location.alike? l m
  | .binary op a b l, .binary op' c d m =>
    op == op' && a.alike c && b.alike d && Location.alike? l m
  | .tuple a b l, .tuple c d m => a.alike c && b.alike d && Location.alike? l m
  | .first a l, .first b m => a.alike b && Location.alike? l m
  | .second a l, .second b m => a.alike b && Location.alike? l m
  | _, _ => false

/-- Whether two lists of trees are alike one by one. -/
def allAlike : List Node → List Node → Bool
  | [], [] => true
  | a :: as, b :: bs => a.alike b && allAlike as bs
  | _, _ => false

end

end Node

end Rinha
