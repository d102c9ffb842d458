import Rinha.Error
import Rinha.Json.Reader
import Rinha.Limits
import Rinha.Node.Basic

/-!
# The wire form of programs

Programs arrive as data trees.  A node is an object whose `kind` says which fields it has, and which
may carry a `location`; a bare truth value, integer or string stands for the literal.  A program is
an object with an `expression`, and possibly a `name` and a `location`.  What does not follow these
rules is refused with the first rule that it breaks, fields being looked at in the order in which
the kind lists them.  A location that is missing or of the wrong form is no reason to refuse.

The number of nested nodes that decoding follows is bounded by an explicit budget, one unit a node.

## Main definitions

* `Wire.location` -- the location that data describes, if any.
* `Wire.decodeWith` -- one node, given how to decode its children.
* `Wire.decodeNode` -- a tree, within a budget.
* `Wire.decodeProgram`, `Wire.decodeText` -- a program, from data and from text.
-/

namespace Rinha

namespace Wire

/-- A refusal of data that does not follow the wire form. -/
def malformed (message : String) : Halt :=
  .unlocated (.malformedInput message none)

/-- A field of the wrong type. -/
def wrongType (key expected : String) (data : Json) : Halt :=
  malformed ("field '" ++ key ++ "' must be " ++ expected ++ ", got " ++ data.typeName)

/-- Data where a node is expected that is none has the kind that its type is named after, which does
not exist. -/
def notANode (data : Json) : Halt :=
  .unlocated (.unknownNodeKind data.typeName)

/-- The fields of an object. -/
abbrev Fields := List (String × Json)

/-- A field that a node must have. -/
def required (kind : Node.Kind) (fields : Fields) (key : String) : Except Halt Json :=
  match Json.lookup key fields with
  | some data => .ok data
  | none => .error (malformed (kind.name ++ " is missing field '" ++ key ++ "'"))

/-- A field that must be a string. -/
def requiredString (kind : Node.Kind) (fields : Fields) (key : String) : Except Halt String := do
  match ← required kind fields key with
  | .str value => .ok value
  | data => .error (wrongType key "str" data)

/-- A field that must be an integer; a truth value is none. -/
def requiredInt (kind : Node.Kind) (fields : Fields) (key : String) : Except Halt Int := do
  match ← required kind fields key with
  | .int value => .ok value
  | data => .error (wrongType key "int" data)

/-- A field that must be a truth value. -/
def requiredBool (kind : Node.Kind) (fields : Fields) (key : String) : Except Halt Bool := do
  match ← required kind fields key with
  | .bool value => .ok value
  | data => .error (wrongType key "bool" data)

/-- A field that must be a list. -/
def requiredList (kind : Node.Kind) (fields : Fields) (key : String) :
    Except Halt (List Json) := do
  match ← required kind fields key with
  | .arr items => .ok items
  | data => .error (wrongType key "list" data)

/-- The offset that data describes. -/
def offset? : Json → Option Offset
  | .int value => some (.int value)
  | .bool value => some (.bool value)
  | _ => none

/-- The location that data describes, if it is an object with proper offsets.  A location without an
end ends where it starts, and its file name may be data of any kind. -/
def location : Option Json → Except Halt (Option Location)
  | some (.obj fields) =>
    let start := Json.lookup "start" fields
    let stop := (Json.lookup "end" fields).or start
    match start.bind offset?, stop.bind offset? with
    | some start, some stop => do
      let name := (Json.lookup "filename" fields).getD (.str "")
      let filename ← Halt.ofConversion name.display
      return some ⟨start, stop, filename⟩
    | _, _ => .ok none
  | _ => .ok none

/-- An identifier: a string, or an object with a string as its `text`. -/
def identifier (key : String) (data : Json) : Except Halt String :=
  match data, data.field? "text" with
  | .str name, _ => .ok name
  | _, some (.str name) => .ok name
  | _, _ => .error (malformed ("field '" ++ key ++ "' must be an identifier object with 'text'"))

/-- Applies a decoder to the items of a list, first to last. -/
def decodeAll {α : Type} (decode : Json → Except Halt α) : List Json → Except Halt (List α)
  | [] => .ok []
  | data :: rest => do
    let item ← decode data
    return item :: (← decodeAll decode rest)

/-- A node of a given kind from its fields. -/
def decodeFields (decode : Json → Except Halt Node) (kind : Node.Kind) (fields : Fields)
    (location : Option Location) : Except Halt Node :=
  let child (key : String) : Except Halt Node := do decode (← required kind fields key)
  match kind with
  | .str => do return .str (← requiredString kind fields "value") location
  | .int => do return .int (← requiredInt kind fields "value") location
  | .bool => do return .bool (← requiredBool kind fields "value") location
  | .print => do return .print (← child "value") location
  | .letIn => do
    let name ← identifier "name" (← required kind fields "name")
    let value ← child "value"
    let next ← child "next"
    return .letIn name value next location
  | .var => do return .var (← requiredString kind fields "text") location
  | .cond => do
    let condition ← child "condition"
    let then_ ← child "then"
    let otherwise ← child "otherwise"
    return .cond condition then_ otherwise location
  | .function => do
    let parameters ← decodeAll (identifier "parameters") (← requiredList kind fields "parameters")
    let body ← child "value"
    return .function parameters body location
  | .call => do
    let callee ← child "callee"
    let arguments ← decodeAll decode (← requiredList kind fields "arguments")
    return .call callee arguments location
  | .binary => do
    let name ← requiredString kind fields "op"
    match Operator.ofName? name with
    | none => .error (.error (.unknownOperator name) location)
    | some op => do
      let lhs ← child "lhs"
      let rhs ← child "rhs"
      return .binary op lhs rhs location
  | .tuple => do
    let left ← child "first"
    let right ← child "second"
    return .tuple left right location
  | .first => do return .first (← child "value") location
  | .second => do return .second (← child "value") location

/-- One node, given how to decode its children. -/
def decodeWith (decode : Json → Except Halt Node) (data : Json) : Except Halt Node :=
  match data with
  | .bool value => .ok (.bool value none)
  | .int value => .ok (.int value none)
  | .str value => .ok (.str value none)
  | .obj fields =>
    match Json.lookup "kind" fields with
    | none | some .null => .error (malformed "node object has no 'kind' field")
    | some (.str name) => do
      let location ← location (Json.lookup "location" fields)
      match Node.Kind.ofName? name with
      | none => .error (.error (.unknownNodeKind name) location)
      | some kind => decodeFields decode kind fields location
    | some data => .error (wrongType "kind" "str" data)
  | data => .error (malformed ("expected a node object, got " ++ data.typeName))

/-- A tree of at most as many nested nodes as the budget has units. -/
def decodeNode : Nat → Json → Except Halt Node
  | 0, _ => .error .nesting
  | budget + 1, data => decodeWith (decodeNode budget) data

/-- The tree of a program; one that is nested beyond the budget is malformed. -/
def decodeExpression (budget : Nat) (data : Json) : Except Halt Node :=
  match decodeNode budget data with
  | .error .nesting => .error (malformed "AST is nested too deeply to decode")
  | result => result

/-- A program from data. -/
def decodeProgram (limits : Limits) (data : Json) : Except Halt Program :=
  match data with
  | .obj fields =>
    match Json.lookup "expression" fields with
    | none => .error (malformed "top-level object is missing 'expression'")
    | some expression => do
      let expression ← decodeExpression limits.decoding expression
      let location ← location (Json.lookup "location" fields)
      let name := match Json.lookup "name" fields with
        | some (.str name) => name
        | _ => ""
      return ⟨name, expression, location⟩
  | data => .error (malformed ("expected a JSON object at top level, got " ++ data.typeName))

/-- Why a text that spells no data holds no program. -/
def unreadable (text : List Char) (filename : String) : Json.Failure → Halt
  | .malformed reason remaining =>
    let position : Int := text.length - remaining
    let line := toString (Source.lineNumber text position)
    let column := decimalText (Source.column text position)
    .unlocated (.malformedInput
      ("invalid JSON at line " ++ line ++ ", column " ++ column ++ ": " ++ reason.message)
      (some filename))
  | .tooDeep => .unlocated (.malformedInput "JSON is nested too deeply" (some filename))
  | .digits refusal => .digits refusal
  | .unpaired => .fault .unpaired

/-- A halt of the decoding of a file, which names the file if it finds the program malformed. -/
def inFile (filename : String) : Halt → Halt
  | .error e location => .error (e.inFile filename) location
  | halt => halt

/-- A program from the text of a file. -/
def decodeText (limits : Limits) (text filename : String) : Except Halt Program :=
  let chars := text.toList
  match Json.parse ⟨some limits.reading, some digitLimit⟩ chars with
  | .error failure => .error (unreadable chars filename failure)
  | .ok data =>
    match decodeProgram limits data with
    | .error halt => .error (inFile filename halt)
    | .ok program => .ok program

end Wire

end Rinha
