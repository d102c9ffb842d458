import Rinha.Limits
import Rinha.Operation
import Rinha.Store

/-!
# Evaluation

A node is evaluated in a scope, by a machine that holds the store, the text printed so far, the
trace of a debugging run and the depth of nesting.  Whatever way an evaluation ends, the machine is
left with everything done up to then.

Nesting is bounded twice: by the depth that the settings allow, beyond which evaluation is an error
of the program, and by a budget of recursion, one unit for every node whose evaluation is in
progress.  The depth is the machine's and is counted up and down; the budget makes evaluation total.
What a host can follow bounds the budget, and is less in a traced run.

## Main definitions

* `Settings` -- the depth allowed, and whether the run is traced.
* `Machine`, `Run` -- the state of an evaluation, and computations on it.
* `evaluateNode` -- what evaluating a node does, given how to evaluate its children.
* `evaluate` -- evaluation within a budget.
* `interpret` -- a whole program in an empty scope of its own.
-/

namespace Rinha

/-- How a program is run. -/
structure Settings where
  /-- How many evaluations may be in progress at once. -/
  maxDepth : Int := defaultMaxDepth
  /-- Whether the run is traced. -/
  debug : Bool := false
  deriving DecidableEq, Repr

/-- An entry of the trace of a run. -/
inductive TraceEntry where
  | evaluating (kind : Node.Kind) (depth : Int)
  | bound (name tag : String)
  | calling (parameters : List String)
  deriving DecidableEq, Repr

/-- The wording of an entry. -/
def TraceEntry.text : TraceEntry → String
  | .evaluating kind depth => "Evaluating: " ++ kind.name ++ " (depth " ++ decimalText depth ++ ")"
  | .bound name tag => "Bound " ++ name ++ " : " ++ tag
  | .calling parameters => "Calling closure(" ++ ", ".intercalate parameters ++ ")"

/-- The state of an evaluation. -/
structure Machine where
  store : Store := {}
  output : String := ""
  trace : Array TraceEntry := #[]
  depth : Int := 0
  deriving Inhabited

/-- A computation on the machine, which may stop short of a result. -/
abbrev Run := EStateM Halt Machine

namespace Run

/-- Stops with an error whose location is not known yet. -/
@[inline] def fail {α : Type} (e : Error) : Run α :=
  throw (.unlocated e)

/-- A result that was computed without the machine. -/
@[inline] def lift {α : Type} : Except Halt α → Run α
  | .ok value => pure value
  | .error halt => throw halt

/-- Adds an entry to the trace, if the run is traced. -/
@[inline] def note (settings : Settings) (entry : TraceEntry) : Run Unit :=
  if settings.debug then modify fun m => { m with trace := m.trace.push entry } else pure ()

/-- Prints a text. -/
@[inline] def write (text : String) : Run Unit :=
  modify fun m => { m with output := m.output ++ text }

/-- Binds a name in a scope. -/
@[inline] def define (scope : ScopeId) (name : String) (value : Value) : Run Unit :=
  modify fun m => { m with store := m.store.define scope name value }

/-- The value of a name, which must be bound. -/
@[inline] def lookup (scope : ScopeId) (name : String) : Run Value := do
  match (← get).store.lookup scope name with
  | some value => pure value
  | none => fail (.unboundVariable name)

/-- A new scope around given bindings. -/
@[inline] def newScope (parent : Option ScopeId) (bindings : Bindings) : Run ScopeId :=
  modifyGet fun m =>
    let (id, store) := m.store.newScope parent bindings
    (id, { m with store := store })

/-- A new closure over a scope. -/
@[inline] def newClosure (parameters : List String) (body : Node) (scope : ScopeId) : Run Value :=
  modifyGet fun m =>
    let (value, store) := m.store.newClosure parameters body scope
    (value, { m with store := store })

/-- A computation one level deeper.  When it ends the depth goes back by one, and an error that has
no location yet gets the given one. -/
@[inline] def nested {α : Type} (location : Option Location) (body : Run α) : Run α := fun m =>
  match body { m with depth := m.depth + 1 } with
  | .ok value m => .ok value { m with depth := m.depth - 1 }
  | .error halt m => .error (halt.within location) { m with depth := m.depth - 1 }

end Run

/-- The values of several nodes, first to last. -/
def evaluateAll (eval : Node → Run Value) : List Node → Run (List Value)
  | [] => pure []
  | node :: rest => do
    let value ← eval node
    return value :: (← evaluateAll eval rest)

/-- What evaluating a node in a scope does once its depth is granted. -/
@[inline] def evaluateBody (settings : Settings) (eval : Node → ScopeId → Run Value) (node : Node)
    (scope : ScopeId) : Run Value :=
  match node with
  | .str value _ => pure (.str value)
  | .int value _ => pure (.int value)
  | .bool value _ => pure (.bool value)
  | .print operand _ => do
    let value ← eval operand scope
    Run.write (← Run.lift (Halt.ofConversion value.printed))
    pure value
  | .letIn name operand next _ => do
    let value ← eval operand scope
    Run.define scope name value
    Run.note settings (.bound name value.tag)
    eval next scope
  | .var name _ => Run.lookup scope name
  | .cond condition then_ otherwise _ => do
    let value ← eval condition scope
    if value.isTruthy then eval then_ scope else eval otherwise scope
  | .function parameters body _ => Run.newClosure parameters body scope
  | .call callee arguments _ => do
    match ← eval callee scope with
    | .closure _ parameters body captured =>
      if arguments.length ≠ parameters.length then
        Run.fail (.wrongArity parameters.length arguments.length)
      else
        let values ← evaluateAll (eval · scope) arguments
        let inner ← Run.newScope (some captured) (Bindings.ofArguments parameters values)
        Run.note settings (.calling parameters)
        eval body inner
    | value => Run.fail (.notCallable value.tag)
  | .binary op lhs rhs _ => do
    let left ← eval lhs scope
    match op with
    | .and => if left.isTruthy then eval rhs scope else pure left
    | .or => if left.isTruthy then pure left else eval rhs scope
    | op => do
      let right ← eval rhs scope
      Run.lift (op.apply left right)
  | .tuple lhs rhs _ => do
    let left ← eval lhs scope
    let right ← eval rhs scope
    pure (.tuple left right)
  | .first operand _ => do
    match ← eval operand scope with
    | .tuple left _ => pure left
    | value => Run.fail (.notATuple value.tag "First")
  | .second operand _ => do
    match ← eval operand scope with
    | .tuple _ right => pure right
    | value => Run.fail (.notATuple value.tag "Second")

/-- Evaluates a node in a scope, given how to evaluate its children: the node is refused when the
depth allowed is reached. -/
@[inline] def evaluateNode (settings : Settings) (eval : Node → ScopeId → Run Value) (node : Node)
    (scope : ScopeId) : Run Value := do
  let depth := (← get).depth
  Run.note settings (.evaluating node.kind depth)
  if settings.maxDepth ≤ depth then
    throw (.refusal settings.maxDepth node.location)
  else
    Run.nested node.location (evaluateBody settings eval node scope)

/-- Evaluates a node in a scope, within a budget of nested evaluations. -/
def evaluate (settings : Settings) : Nat → Node → ScopeId → Run Value
  | 0, _, _ => throw .nesting
  | budget + 1, node, scope => evaluateNode settings (evaluate settings budget) node scope

/-- The budget that the depth left over can use up. -/
def Settings.budget (settings : Settings) (depth : Int) : Nat :=
  (settings.maxDepth - depth).toNat + 1

/-- The budget of an evaluation on a host, which may follow less far than the depth left over. -/
def Settings.budgetOn (settings : Settings) (host : Limits) (depth : Int) : Nat :=
  min (settings.budget depth) (host.evaluating settings.debug)

/-- Evaluates a node from the depth that the machine is at. -/
def evaluateHere (settings : Settings) (host : Limits) (node : Node) (scope : ScopeId) :
    Run Value := do
  let depth := (← get).depth
  evaluate settings (settings.budgetOn host depth) node scope

/-- Nesting beyond what the host can follow is nesting beyond the depth allowed. -/
def Settings.exhausted (settings : Settings) : Halt → Halt
  | .nesting => .refusal settings.maxDepth none
  | halt => halt

/-- Evaluates a node in a scope from depth zero, whatever depth the machine is at. -/
def evaluateProgram (settings : Settings) (host : Limits) (node : Node) (scope : ScopeId) :
    Run Value := fun m =>
  match evaluateHere settings host node scope { m with depth := 0 } with
  | .ok value m' => .ok value { m' with depth := m.depth }
  | .error halt m' => .error (settings.exhausted halt) { m' with depth := m.depth }

/-- Runs a tree in a new scope that binds nothing. -/
def interpret (settings : Settings) (host : Limits) (node : Node) : Run Value := do
  let scope ← Run.newScope none []
  evaluateProgram settings host node scope

end Rinha
