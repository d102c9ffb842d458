import Rinha.Wire

/-!
# Layouts of nodes

A kind of node has a layout: the fields that its objects have, in the order in which they are looked
at, and the form that the data of each field must have.  Decoding the fields of a node reads the
parts that its layout lists and puts them together.  So what holds of decoding is shown once for
every form of data, and not for every kind of node.

## Main definitions

* `Wire.Shape`, `Node.Kind.layout` -- the forms of data, and the fields of a kind of node.
* `Wire.Part`, `Wire.readParts` -- what a field holds, and all that the fields of a layout hold.
* `Wire.assemble` -- the node that consists of given parts.
* `Wire.decodeFields_eq` -- decoding the fields of a node reads its layout.
-/

namespace Rinha

/-- The forms that the data of a field can be required to have. -/
inductive Wire.Shape where
  | text | integer | truth | operator | name | names | node | nodes
  deriving DecidableEq, Repr

/-- The fields of a kind of node, with the forms of their data. -/
def Node.Kind.layout : Node.Kind → List (String × Wire.Shape)
  | .str => [("value", .text)]
  | .int => [("value", .integer)]
  | .bool => [("value", .truth)]
  | .print | .first | .second => [("value", .node)]
  | .letIn => [("name", .name), ("value", .node), ("next", .node)]
  | .var => [("text", .text)]
  | .cond => [("condition", .node), ("then", .node), ("otherwise", .node)]
  | .function => [("parameters", .names), ("value", .node)]
  | .call => [("callee", .node), ("arguments", .nodes)]
  | .binary => [("op", .operator), ("lhs", .node), ("rhs", .node)]
  | .tuple => [("first", .node), ("second", .node)]

namespace Wire

/-- What a field holds, once its data is decoded. -/
inductive Part where
  | text (value : String)
  | integer (value : Int)
  | truth (value : Bool)
  | operator (op : Operator)
  | names (names : List String)
  | node (node : Node)
  | nodes (nodes : List Node)

section

variable (decode : Json → Except Halt Node) (kind : Node.Kind) (fields : Fields)
  (location : Option Location) (key : String)

/-- The part that the data of a field of the given form spells. -/
def readData : Shape → Json → Except Halt Part
  | .text, .str value => .ok (.text value)
  | .text, data => .error (wrongType key "str" data)
  | .integer, .int value => .ok (.integer value)
  | .integer, data => .error (wrongType key "int" data)
  | .truth, .bool value => .ok (.truth value)
  | .truth, data => .error (wrongType key "bool" data)
  | .operator, .str name =>
    match Operator.ofName? name with
    | none => .error (.error (.unknownOperator name) location)
    | some op => .ok (.operator op)
  | .operator, data => .error (wrongType key "str" data)
  | .name, data => do return .text (← identifier key data)
  | .names, .arr items => do return .names (← decodeAll (identifier key) items)
  | .names, data => .error (wrongType key "list" data)
  | .node, data => do return .node (← decode data)
  | .nodes, .arr items => do return .nodes (← decodeAll decode items)
  | .nodes, data => .error (wrongType key "list" data)

/-- The part that a field of the given form holds. -/
def readPart (shape : Shape) : Except Halt Part := do
  readData decode location key shape (← required kind fields key)

/-- The parts that the fields of a layout hold, first to last. -/
def readParts : List (String × Shape) → Except Halt (List Part)
  | [] => pure []
  | (key, shape) :: rest => do
    let part ← readPart decode kind fields location key shape
    return part :: (← readParts rest)

theorem readPart_text :
    readPart decode kind fields location key .text =
      (do return .text (← requiredString kind fields key)) := by
  simp only [readPart, requiredString, bind_assoc]
  refine congrArg _ (funext fun data => ?_)
  cases data <;> rfl

theorem readPart_integer :
    readPart decode kind fields location key .integer =
      (do return .integer (← requiredInt kind fields key)) := by
  simp only [readPart, requiredInt, bind_assoc]
  refine congrArg _ (funext fun data => ?_)
  cases data <;> rfl

theorem readPart_truth :
    readPart decode kind fields location key .truth =
      (do return .truth (← requiredBool kind fields key)) := by
  simp only [readPart, requiredBool, bind_assoc]
  refine congrArg _ (funext fun data => ?_)
  cases data <;> rfl

theorem readPart_operator :
    readPart decode kind fields location key .operator = (do
      let name ← requiredString kind fields key
      match Operator.ofName? name with
      | none => .error (.error (.unknownOperator name) location)
      | some op => .ok (.operator op)) := by
  simp only [readPart, requiredString, bind_assoc]
  refine congrArg _ (funext fun data => ?_)
  cases data <;> rfl

theorem readPart_name :
    readPart decode kind fields location key .name = (do
      return .text (← identifier key (← required kind fields key))) := rfl

theorem readPart_node :
    readPart decode kind fields location key .node = (do
      return .node (← decode (← required kind fields key))) := rfl

theorem readPart_names :
    readPart decode kind fields location key .names = (do
      let items ← requiredList kind fields key
      return .names (← decodeAll (identifier key) items)) := by
  simp only [readPart, requiredList, bind_assoc]
  refine congrArg _ (funext fun data => ?_)
  cases data <;> rfl

theorem readPart_nodes :
    readPart decode kind fields location key .nodes = (do
      let items ← requiredList kind fields key
      return .nodes (← decodeAll decode items)) := by
  simp only [readPart, requiredList, bind_assoc]
  refine congrArg _ (funext fun data => ?_)
  cases data <;> rfl

end

/-- The node of a kind that consists of given parts, if they are those of its layout. -/
def assemble : Node.Kind → List Part → Option Location → Node
  | .str, [.text value], l => .str value l
  | .int, [.integer value], l => .int value l
  | .bool, [.truth value], l => .bool value l
  | .print, [.node operand], l => .print operand l
  | .letIn, [.text name, .node operand, .node next], l => .letIn name operand next l
  | .var, [.text name], l => .var name l
  | .cond, [.node condition, .node then_, .node otherwise], l => .cond condition then_ otherwise l
  | .function, [.names parameters, .node body], l => .function parameters body l
  | .call, [.node callee, .nodes arguments], l => .call callee arguments l
  | .binary, [.operator op, .node lhs, .node rhs], l => .binary op lhs rhs l
  | .tuple, [.node left, .node right], l => .tuple left right l
  | .first, [.node operand], l => .first operand l
  | .second, [.node operand], l => .second operand l
  | _, _, _ => default

/-- Decoding the fields of a node reads the parts that its layout lists, and puts them together. -/
theorem decodeFields_eq (decode : Json → Except Halt Node) (kind : Node.Kind) (fields : Fields)
    (location : Option Location) :
    decodeFields decode kind fields location = (do
      return assemble kind (← readParts decode kind fields location kind.layout) location) := by
  cases kind with
  | binary =>
    simp only [decodeFields, Node.Kind.layout, readParts, readPart_operator, readPart_node,
      bind_assoc, pure_bind]
    refine congrArg _ (funext fun name => ?_)
    cases Operator.ofName? name with
    | none => rfl
    | some op => rfl
  | _ =>
    simp only [decodeFields, Node.Kind.layout, readParts, readPart_text, readPart_integer,
      readPart_truth, readPart_name, readPart_names, readPart_node, readPart_nodes, bind_assoc,
      pure_bind]
    rfl

end Wire

end Rinha
