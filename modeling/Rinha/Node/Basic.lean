import Rinha.Location

/-!
# Syntax trees

A program is a tree of nodes.  Every node may carry the location of the source text that it stands
for, which has no bearing on what the program does.

## Main definitions

* `Operator` -- the binary operators, with their names.
* `Node` -- a node of a program.
* `Node.Kind` -- the kinds of node, with their names.
* `Program` -- a named tree, as a file holds it.
-/

namespace Rinha

/-- The binary operators. -/
inductive Operator where
  | add | sub | mul | div | rem
  | eq | neq | lt | lte | gt | gte
  | and | or
  deriving DecidableEq, Repr, Inhabited

namespace Operator

/-- The name of an operator. -/
def name : Operator → String
  | .add => "Add"
  | .sub => "Sub"
  | .mul => "Mul"
  | .div => "Div"
  | .rem => "Rem"
  | .eq => "Eq"
  | .neq => "Neq"
  | .lt => "Lt"
  | .lte => "Lte"
  | .gt => "Gt"
  | .gte => "Gte"
  | .and => "And"
  | .or => "Or"

/-- Every operator. -/
def all : List Operator :=
  [.add, .sub, .mul, .div, .rem, .eq, .neq, .lt, .lte, .gt, .gte, .and, .or]

/-- The operator of a given name. -/
def ofName? (name : String) : Option Operator :=
  all.find? fun op => op.name == name

/-- Every operator is found under its name. -/
@[simp] theorem ofName?_name (op : Operator) : ofName? op.name = some op := by
  cases op <;> decide

/-- What is found under a name has that name. -/
theorem name_of_ofName? {name : String} {op : Operator} (h : ofName? name = some op) :
    op.name = name := by
  have := List.find?_some h
  simpa using this

/-- No two operators share a name. -/
theorem name_injective {op op' : Operator} (h : op.name = op'.name) : op = op' := by
  have hfound : some op = some op' := by rw [← ofName?_name op, h, ofName?_name]
  exact Option.some.inj hfound

end Operator

/-- A node of a program, with the location of its source text if that is known. -/
inductive Node where
  | str (value : String) (location : Option Location)
  | int (value : Int) (location : Option Location)
  | bool (value : Bool) (location : Option Location)
  | print (value : Node) (location : Option Location)
  | letIn (name : String) (value next : Node) (location : Option Location)
  | var (name : String) (location : Option Location)
  | cond (condition then_ otherwise : Node) (location : Option Location)
  | function (parameters : List String) (body : Node) (location : Option Location)
  | call (callee : Node) (arguments : List Node) (location : Option Location)
  | binary (op : Operator) (lhs rhs : Node) (location : Option Location)
  | tuple (first second : Node) (location : Option Location)
  | first (value : Node) (location : Option Location)
  | second (value : Node) (location : Option Location)
  deriving Inhabited

namespace Node

/-- The location of the source text of a node. -/
def location : Node → Option Location
  | .str _ l | .int _ l | .bool _ l | .print _ l | .letIn _ _ _ l | .var _ l | .cond _ _ _ l
  | .function _ _ l | .call _ _ l | .binary _ _ _ l | .tuple _ _ l | .first _ l | .second _ l => l

/-- The kinds of node. -/
inductive Kind where
  | str | int | bool | print | letIn | var | cond | function | call | binary | tuple | first
  | second
  deriving DecidableEq, Repr, Inhabited

/-- The name of a kind of node. -/
def Kind.name : Kind → String
  | .str => "Str"
  | .int => "Int"
  | .bool => "Bool"
  | .print => "Print"
  | .letIn => "Let"
  | .var => "Var"
  | .cond => "If"
  | .function => "Function"
  | .call => "Call"
  | .binary => "Binary"
  | .tuple => "Tuple"
  | .first => "First"
  | .second => "Second"

/-- Every kind of node. -/
def Kind.all : List Kind :=
  [.str, .int, .bool, .print, .letIn, .var, .cond, .function, .call, .binary, .tuple, .first,
    .second]

/-- The kind of a given name. -/
def Kind.ofName? (name : String) : Option Kind :=
  Kind.all.find? fun kind => kind.name == name

/-- Every kind is found under its name. -/
@[simp] theorem Kind.ofName?_name (kind : Kind) : Kind.ofName? kind.name = some kind := by
  cases kind <;> decide

/-- What is found under a name has that name. -/
theorem Kind.name_of_ofName? {name : String} {kind : Kind} (h : Kind.ofName? name = some kind) :
    kind.name = name := by
  have := List.find?_some h
  simpa using this

/-- No two kinds share a name. -/
theorem Kind.name_injective {kind kind' : Kind} (h : kind.name = kind'.name) : kind = kind' := by
  have hfound : some kind = some kind' := by rw [← Kind.ofName?_name kind, h, Kind.ofName?_name]
  exact Option.some.inj hfound

/-- The kind of a node. -/
def kind : Node → Kind
  | .str .. => .str
  | .int .. => .int
  | .bool .. => .bool
  | .print .. => .print
  | .letIn .. => .letIn
  | .var .. => .var
  | .cond .. => .cond
  | .function .. => .function
  | .call .. => .call
  | .binary .. => .binary
  | .tuple .. => .tuple
  | .first .. => .first
  | .second .. => .second

end Node

/-- A named tree, as a file holds it. -/
structure Program where
  name : String
  expression : Node
  location : Option Location
  deriving Inhabited

end Rinha
