import Rinha.Json.Basic
import Rinha.Node.Basic
import Rinha.Repetition

/-!
# Dumps

A dump shows a tree as indented text, one node a line.  Children are indented one step further than
their parent, the arguments of a call two.  A literal is written out, so a dump is refused when an
integer in the tree has too many digits; it is refused as well when there is no room for the
indentation that is asked for.

## Main definitions

* `Node.dumpLines` -- the lines of a dump.
* `Node.dump` -- the dump of a tree from a given indentation on.
* `Json.dump` -- what stands for data that is no tree.
* `Node.dumpWithin`, `Json.dumpWithin` -- the same, if there is room for the indentation.
-/

namespace Rinha

/-- A line indented by a number of steps of two blanks; fewer than none are none. -/
def indented (steps : Int) (line : String) : String :=
  String.ofList (List.replicate (2 * steps.toNat) ' ') ++ line

namespace Node

mutual

/-- The lines of the dump of a tree. -/
def dumpLines (steps : Int) : Node → Except TooManyDigits (List String)
  | .str value _ => .ok [indented steps ("Str(" ++ Text.quote value ++ ")")]
  | .int value _ => do return [indented steps ("Int(" ++ (← decimal value) ++ ")")]
  | .bool value _ => .ok [indented steps (if value then "Bool(True)" else "Bool(False)")]
  | .var name _ => .ok [indented steps ("Var(" ++ name ++ ")")]
  | .print value _ => do return indented steps "Print" :: (← value.dumpLines (steps + 1))
  | .first value _ => do return indented steps "First" :: (← value.dumpLines (steps + 1))
  | .second value _ => do return indented steps "Second" :: (← value.dumpLines (steps + 1))
  | .function parameters body _ => do
    let head := "Function(" ++ ", ".intercalate parameters ++ ")"
    return indented steps head :: (← body.dumpLines (steps + 1))
  | .letIn name value next _ => do
    let value ← value.dumpLines (steps + 1)
    let next ← next.dumpLines (steps + 1)
    return indented steps ("Let(" ++ name ++ ")") :: (value ++ next)
  | .binary op lhs rhs _ => do
    let lhs ← lhs.dumpLines (steps + 1)
    let rhs ← rhs.dumpLines (steps + 1)
    return indented steps ("Binary(" ++ op.name ++ ")") :: (lhs ++ rhs)
  | .tuple left right _ => do
    let left ← left.dumpLines (steps + 1)
    let right ← right.dumpLines (steps + 1)
    return indented steps "Tuple" :: (left ++ right)
  | .cond condition then_ otherwise _ => do
    let condition ← condition.dumpLines (steps + 1)
    let then_ ← then_.dumpLines (steps + 1)
    let otherwise ← otherwise.dumpLines (steps + 1)
    return indented steps "If" :: (condition ++ then_ ++ otherwise)
  | .call callee arguments _ => do
    let callee ← callee.dumpLines (steps + 1)
    let arguments ← dumpAll (steps + 2) arguments
    return indented steps "Call" :: (callee ++ arguments)

/-- The lines of the dumps of several trees, one after the other. -/
def dumpAll (steps : Int) : List Node → Except TooManyDigits (List String)
  | [] => .ok []
  | node :: rest => do
    let lines ← node.dumpLines steps
    return lines ++ (← dumpAll steps rest)

end

/-- The dump of a tree from a given indentation on. -/
def dump (steps : Int) (node : Node) : Except TooManyDigits String := do
  return "\n".intercalate (← node.dumpLines steps)

end Node

/-- What a dump shows in place of data that is no tree. -/
def Json.dump (steps : Int) (data : Json) : String :=
  indented steps ("<" ++ data.typeName ++ ">")

/-- The dump of a tree from a given indentation on, if there is room for the indentation of its
root. -/
def Node.dumpWithin (steps : Int) (node : Node) : Except Fault String := do
  let _ ← repetitions 2 steps .tooLong
  (node.dump steps).mapError .digits

/-- What a dump shows in place of data that is no tree, if there is room for the indentation. -/
def Json.dumpWithin (steps : Int) (data : Json) : Except Fault String := do
  let _ ← repetitions 2 steps .tooLong
  return data.dump steps

end Rinha
