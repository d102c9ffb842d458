import Rinha.Node.Dump

/-!
# Labels of nodes

A node consists of a label, of its location, and of the nodes below it.  The label holds all that is
not itself a node: the kind, and the name, the literal, the parameters or the operator.  So what
holds alike for nodes of all kinds is said of labels and of the nodes below, and not kind by kind.

The nodes below are the operands, of which every kind has its own number, and the arguments, of
which a call has any number and other nodes have none.  A dump shows a label on a line of its own,
then the operands one step further in, and then the arguments two steps further in.

## Main definitions

* `Node.Label`, `Node.label`, `Node.operands`, `Node.arguments` -- the constituents of a node.
* `Node.subtrees` -- the nodes directly below a node.
* `Node.bare` -- a tree without its locations, which is made up of its constituents.
* `Node.heading` -- the line that shows a label.
* `Node.dumpLines_eq` -- the dump of a tree by its constituents.
-/

namespace Rinha

namespace Node

/-! ## Constituents -/

/-- All of a node but its location and the nodes below it. -/
inductive Label where
  | str (value : String)
  | int (value : Int)
  | bool (value : Bool)
  | print
  | letIn (name : String)
  | var (name : String)
  | cond
  | function (parameters : List String)
  | call
  | binary (op : Operator)
  | tuple
  | first
  | second
  deriving DecidableEq, Repr

/-- The label of a node. -/
def label : Node → Label
  | .str value _ => .str value
  | .int value _ => .int value
  | .bool value _ => .bool value
  | .print .. => .print
  | .letIn name _ _ _ => .letIn name
  | .var name _ => .var name
  | .cond .. => .cond
  | .function parameters _ _ => .function parameters
  | .call .. => .call
  | .binary op _ _ _ => .binary op
  | .tuple .. => .tuple
  | .first .. => .first
  | .second .. => .second

/-- The nodes below a node, apart from the arguments of a call. -/
def operands : Node → List Node
  | .str .. | .int .. | .bool .. | .var .. => []
  | .print operand _ | .first operand _ | .second operand _ => [operand]
  | .letIn _ operand next _ => [operand, next]
  | .cond condition then_ otherwise _ => [condition, then_, otherwise]
  | .function _ body _ => [body]
  | .call callee _ _ => [callee]
  | .binary _ lhs rhs _ | .tuple lhs rhs _ => [lhs, rhs]

/-- The arguments of a call; other nodes have none. -/
def arguments : Node → List Node
  | .call _ arguments _ => arguments
  | _ => []

/-- The nodes below a node. -/
def subtrees (node : Node) : List Node :=
  node.operands ++ node.arguments

theorem forall_mem_subtrees {node : Node} {p : Node → Prop} :
    (∀ child ∈ node.subtrees, p child) ↔
      (∀ operand ∈ node.operands, p operand) ∧ ∀ argument ∈ node.arguments, p argument :=
  List.forall_mem_append

/-- The node of a label over given operands and arguments, without a location. -/
def ofLabel : Label → List Node → List Node → Node
  | .str value, [], _ => .str value none
  | .int value, [], _ => .int value none
  | .bool value, [], _ => .bool value none
  | .print, [operand], _ => .print operand none
  | .letIn name, [operand, next], _ => .letIn name operand next none
  | .var name, [], _ => .var name none
  | .cond, [condition, then_, otherwise], _ => .cond condition then_ otherwise none
  | .function parameters, [body], _ => .function parameters body none
  | .call, [callee], arguments => .call callee arguments none
  | .binary op, [lhs, rhs], _ => .binary op lhs rhs none
  | .tuple, [left, right], _ => .tuple left right none
  | .first, [operand], _ => .first operand none
  | .second, [operand], _ => .second operand none
  | _, _, _ => default

/-- How many operands the nodes of a label have. -/
def Label.arity : Label → Nat
  | .str _ | .int _ | .bool _ | .var _ => 0
  | .print | .function _ | .call | .first | .second => 1
  | .letIn _ | .binary _ | .tuple => 2
  | .cond => 3

theorem length_operands (node : Node) : node.operands.length = node.label.arity := by
  cases node <;> rfl

/-! ## Trees without locations -/

mutual

/-- A tree without its locations. -/
def bare : Node → Node
  | .str value _ => .str value none
  | .int value _ => .int value none
  | .bool value _ => .bool value none
  | .print operand _ => .print operand.bare none
  | .letIn name operand next _ => .letIn name operand.bare next.bare none
  | .var name _ => .var name none
  | .cond condition then_ otherwise _ => .cond condition.bare then_.bare otherwise.bare none
  | .function parameters body _ => .function parameters body.bare none
  | .call callee arguments _ => .call callee.bare (bareAll arguments) none
  | .binary op lhs rhs _ => .binary op lhs.bare rhs.bare none
  | .tuple left right _ => .tuple left.bare right.bare none
  | .first operand _ => .first operand.bare none
  | .second operand _ => .second operand.bare none

/-- Several trees without their locations. -/
def bareAll : List Node → List Node
  | [] => []
  | node :: nodes => node.bare :: bareAll nodes

end

theorem bareAll_eq_map (nodes : List Node) : bareAll nodes = nodes.map bare := by
  induction nodes with
  | nil => rfl
  | cons node nodes ih => rw [bareAll, ih, List.map_cons]

/-- A tree without its locations is made up of its label and of what is below it. -/
theorem bare_eq (node : Node) :
    node.bare = ofLabel node.label (node.operands.map bare) (node.arguments.map bare) := by
  cases node with
  | call callee arguments l => rw [bare, bareAll_eq_map]; rfl
  | _ => rw [bare]; rfl

/-! ## Dumps -/

/-- The kind of the nodes of a label. -/
def Label.kind : Label → Kind
  | .str _ => .str
  | .int _ => .int
  | .bool _ => .bool
  | .print => .print
  | .letIn _ => .letIn
  | .var _ => .var
  | .cond => .cond
  | .function _ => .function
  | .call => .call
  | .binary _ => .binary
  | .tuple => .tuple
  | .first => .first
  | .second => .second

/-- What a dump shows of a label beside its kind. -/
def Label.detail : Label → Except TooManyDigits (Option String)
  | .str value => .ok (some (Text.quote value))
  | .int value => do return some (← decimal value)
  | .bool value => .ok (some (if value then "True" else "False"))
  | .letIn name | .var name => .ok (some name)
  | .function parameters => .ok (some (", ".intercalate parameters))
  | .binary op => .ok (some op.name)
  | .print | .cond | .call | .tuple | .first | .second => .ok none

/-- The line of a dump for a label of a kind. -/
def heading (kind : Kind) : Option String → String
  | none => kind.name
  | some detail => kind.name ++ "(" ++ detail ++ ")"

theorem ok_bind {ε α β : Type} (a : α) (f : α → Except ε β) : (Except.ok a >>= f) = f a := rfl

/-- The dump of a tree is a line for its label, and then the dumps of what is below it. -/
theorem dumpLines_eq (steps : Int) (node : Node) :
    node.dumpLines steps = (do
      let detail ← node.label.detail
      let operands ← dumpAll (steps + 1) node.operands
      let arguments ← dumpAll (steps + 2) node.arguments
      return indented steps (heading node.label.kind detail) :: (operands ++ arguments)) := by
  cases node with
  | bool value l => cases value <;> rfl
  | str | var => rfl
  | _ =>
    simp [dumpLines, dumpAll, label, operands, arguments, Label.detail, Label.kind, heading,
      Kind.name, ok_bind, -bind_pure_comp]

end Node

end Rinha
