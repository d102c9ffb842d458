import Rinha.Store

/-!
# The rules of the language

What a node yields, as rules that mention no depth, no source location and no trace.  A node is
evaluated in a scope of a store.  It yields a value or a failure, prints a text, and leaves a store.
The rules are independent of the evaluator: they have their own account of the texts of values, of
equality, of the operators and of the search for a name.

## Main definitions

* `Value.Shows`, `Value.Unshowable` -- the text of a value, and values that have none.
* `Value.Same` -- equality of values.
* `Operator.Applies` -- what an operator yields for two operands.
* `Store.Resolves`, `Store.Unbound` -- the value of a name in a scope, and names without one.
* `Derives`, `DerivesAll` -- what a node yields, and what several nodes yield first to last.
-/

namespace Rinha

/-! ## Values -/

namespace Value

/-- A value is an integer. -/
def IsInt (x : Value) : Prop :=
  ∃ value, x = .int value

/-- A value is a string. -/
def IsStr (x : Value) : Prop :=
  ∃ value, x = .str value

/-- A value is a function. -/
def IsClosure (x : Value) : Prop :=
  ∃ id parameters body captured, x = .closure id parameters body captured

/-- A value is a pair. -/
def IsTuple (x : Value) : Prop :=
  ∃ left right, x = .tuple left right

/-- The text of a value: integers in decimal, strings as they are, pairs in parentheses. -/
inductive Shows : Value → String → Prop
  | int {value : Int} : value.natAbs < Nat.pow 10 digitLimit → Shows (.int value) (toString value)
  | str {value : String} : Shows (.str value) value
  | true : Shows (.bool true) "true"
  | false : Shows (.bool false) "false"
  | tuple {a b : Value} {left right : String} : Shows a left → Shows b right →
    Shows (.tuple a b) ("(" ++ left ++ ", " ++ right ++ ")")
  | closure {id : Nat} {parameters : List String} {body : Node} {captured : ScopeId} :
    Shows (.closure id parameters body captured) "<#closure>"

/-- A value has no text if an integer in it has too many digits. -/
inductive Unshowable : Value → Prop
  | int {value : Int} : Nat.pow 10 digitLimit ≤ value.natAbs → Unshowable (.int value)
  | left {a b : Value} : Unshowable a → Unshowable (.tuple a b)
  | right {a b : Value} : Unshowable b → Unshowable (.tuple a b)

/-- Equality of values: pairs component by component, functions by identity. -/
inductive Same : Value → Value → Prop
  | int {value : Int} : Same (.int value) (.int value)
  | str {value : String} : Same (.str value) (.str value)
  | bool {value : Bool} : Same (.bool value) (.bool value)
  | tuple {a b c d : Value} : Same a c → Same b d → Same (.tuple a b) (.tuple c d)
  | closure {id : Nat} {ps qs : List String} {body body' : Node} {captured captured' : ScopeId} :
    Same (.closure id ps body captured) (.closure id qs body' captured')

end Value

/-! ## Operators -/

namespace Operator

/-- How an ordering operator relates two things of one kind. -/
def Orders {α : Type} [LT α] [LE α] : Operator → α → α → Prop
  | .lt, a, b => a < b
  | .lte, a, b => a ≤ b
  | .gt, a, b => b < a
  | .gte, a, b => b ≤ a
  | _, _, _ => False

/-- The operators that order. -/
def ordering : List Operator := [.lt, .lte, .gt, .gte]

/-- The operators that take integers only. -/
def integral : List Operator := [.sub, .mul, .div, .rem]

/-- What an operator yields for two operands. -/
inductive Applies : Operator → Value → Value → Except Halt Value → Prop
  | add {a b : Int} : Applies .add (.int a) (.int b) (.ok (.int (a + b)))
  | join {x y : Value} {left right : String} : x.IsStr ∨ y.IsStr → x.Shows left → y.Shows right →
    Applies .add x y (.ok (.str (left ++ right)))
  | join_refused {x y : Value} : x.IsStr ∨ y.IsStr → x.Unshowable ∨ y.Unshowable →
    Applies .add x y (.error (.digits .writing))
  | add_mismatch {x y : Value} : ¬ (x.IsStr ∨ y.IsStr) → ¬ (x.IsInt ∧ y.IsInt) →
    Applies .add x y (.error (.unlocated (.typeMismatch "Add" x.tag y.tag)))
  | sub {a b : Int} : Applies .sub (.int a) (.int b) (.ok (.int (a - b)))
  | mul {a b : Int} : Applies .mul (.int a) (.int b) (.ok (.int (a * b)))
  | div {a b : Int} : b ≠ 0 → Applies .div (.int a) (.int b) (.ok (.int (a.fdiv b)))
  | rem {a b : Int} : b ≠ 0 → Applies .rem (.int a) (.int b) (.ok (.int (a.fmod b)))
  | div_zero {a : Int} :
    Applies .div (.int a) (.int 0) (.error (.unlocated (.divisionByZero "Div")))
  | rem_zero {a : Int} :
    Applies .rem (.int a) (.int 0) (.error (.unlocated (.divisionByZero "Rem")))
  | integral_mismatch {op : Operator} {x y : Value} : op ∈ integral → ¬ (x.IsInt ∧ y.IsInt) →
    Applies op x y (.error (.unlocated (.typeMismatch op.name x.tag y.tag)))
  | eq {x y : Value} {truth : Bool} : (truth ↔ x.Same y) → Applies .eq x y (.ok (.bool truth))
  | neq {x y : Value} {truth : Bool} : (truth ↔ ¬ x.Same y) → Applies .neq x y (.ok (.bool truth))
  | order_int {op : Operator} {a b : Int} {truth : Bool} : op ∈ ordering →
    (truth ↔ op.Orders a b) → Applies op (.int a) (.int b) (.ok (.bool truth))
  | order_str {op : Operator} {a b : String} {truth : Bool} : op ∈ ordering →
    (truth ↔ op.Orders a b) → Applies op (.str a) (.str b) (.ok (.bool truth))
  | order_mismatch {op : Operator} {x y : Value} : op ∈ ordering → ¬ (x.IsInt ∧ y.IsInt) →
    ¬ (x.IsStr ∧ y.IsStr) →
    Applies op x y (.error (.unlocated (.typeMismatch op.name x.tag y.tag)))

end Operator

/-! ## Scopes -/

namespace Store

/-- The value of a name in a scope: that of the scope, or that of the scope around it. -/
inductive Resolves (store : Store) (name : String) : ScopeId → Value → Prop
  | here {e : ScopeId} {scope : Scope} {value : Value} : store.scopes[e]? = some scope →
    scope.bindings.get? name = some value → Resolves store name e value
  | around {e parent : ScopeId} {scope : Scope} {value : Value} : store.scopes[e]? = some scope →
    scope.bindings.get? name = none → scope.parent = some parent →
    Resolves store name parent value → Resolves store name e value

/-- Neither a scope nor any scope around it binds a name. -/
inductive Unbound (store : Store) (name : String) : ScopeId → Prop
  | outermost {e : ScopeId} {scope : Scope} : store.scopes[e]? = some scope →
    scope.bindings.get? name = none → scope.parent = none → Unbound store name e
  | around {e parent : ScopeId} {scope : Scope} : store.scopes[e]? = some scope →
    scope.bindings.get? name = none → scope.parent = some parent → Unbound store name parent →
    Unbound store name e

/-- The store as the body of a closure starts: a new, empty scope off the captured one, in which the
parameters are then bound to the arguments one by one. -/
def enter (store : Store) (captured : ScopeId) (parameters : List String) (values : List Value) :
    Store :=
  (parameters.zip values).foldl (fun s pair => s.define store.scopes.size pair.1 pair.2)
    (store.newScope (some captured) []).2

end Store

/-! ## Nodes -/

/-- The child of a node that is evaluated before anything else happens. -/
def Node.head? : Node → Option Node
  | .print operand _ | .first operand _ | .second operand _ | .letIn _ operand _ _ => some operand
  | .cond condition _ _ _ => some condition
  | .call callee _ _ => some callee
  | .binary _ lhs _ _ | .tuple lhs _ _ => some lhs
  | .str .. | .int .. | .bool .. | .var .. | .function .. => none

mutual

/-- `Derives node e s result text s'`: in the scope `e` of the store `s` the node yields the result,
prints the text and leaves the store `s'`. -/
inductive Derives : Node → ScopeId → Store → Except Halt Value → String → Store → Prop
  | str {value l e s} : Derives (.str value l) e s (.ok (.str value)) "" s
  | int {value l e s} : Derives (.int value l) e s (.ok (.int value)) "" s
  | bool {value l e s} : Derives (.bool value l) e s (.ok (.bool value)) "" s
  /-- What goes wrong in the child that comes first goes wrong in the node. -/
  | head {node child e s halt o s₁} : node.head? = some child →
    Derives child e s (.error halt) o s₁ → Derives node e s (.error halt) o s₁
  | print {operand l e s x o s₁ text} : Derives operand e s (.ok x) o s₁ → x.Shows text →
    Derives (.print operand l) e s (.ok x) (o ++ (text ++ "\n")) s₁
  | print_refused {operand l e s x o s₁} : Derives operand e s (.ok x) o s₁ → x.Unshowable →
    Derives (.print operand l) e s (.error (.digits .writing)) o s₁
  | letIn {name operand next l e s x o s₁ r o₁ s₂} : Derives operand e s (.ok x) o s₁ →
    Derives next e (s₁.define e name x) r o₁ s₂ →
    Derives (.letIn name operand next l) e s r (o ++ o₁) s₂
  | var {name l e s x} : s.Resolves name e x → Derives (.var name l) e s (.ok x) "" s
  | var_unbound {name l e s} : s.Unbound name e →
    Derives (.var name l) e s (.error (.unlocated (.unboundVariable name))) "" s
  | cond_then {condition then_ otherwise l e s x o s₁ r o₁ s₂} :
    Derives condition e s (.ok x) o s₁ → x ≠ .bool false → Derives then_ e s₁ r o₁ s₂ →
    Derives (.cond condition then_ otherwise l) e s r (o ++ o₁) s₂
  | cond_otherwise {condition then_ otherwise l e s o s₁ r o₁ s₂} :
    Derives condition e s (.ok (.bool false)) o s₁ → Derives otherwise e s₁ r o₁ s₂ →
    Derives (.cond condition then_ otherwise l) e s r (o ++ o₁) s₂
  | function {parameters body l e s} :
    Derives (.function parameters body l) e s (.ok (.closure s.nextClosure parameters body e)) ""
      { s with nextClosure := s.nextClosure + 1 }
  | call {callee arguments l e s id parameters body captured o s₁ values o₁ s₂ r o₂ s₃} :
    Derives callee e s (.ok (.closure id parameters body captured)) o s₁ →
    arguments.length = parameters.length →
    DerivesAll arguments e s₁ (.ok values) o₁ s₂ →
    Derives body s₂.scopes.size (s₂.enter captured parameters values) r o₂ s₃ →
    Derives (.call callee arguments l) e s r (o ++ (o₁ ++ o₂)) s₃
  | call_argument {callee arguments l e s id parameters body captured o s₁ halt o₁ s₂} :
    Derives callee e s (.ok (.closure id parameters body captured)) o s₁ →
    arguments.length = parameters.length →
    DerivesAll arguments e s₁ (.error halt) o₁ s₂ →
    Derives (.call callee arguments l) e s (.error halt) (o ++ o₁) s₂
  | call_arity {callee arguments l e s id parameters body captured o s₁} :
    Derives callee e s (.ok (.closure id parameters body captured)) o s₁ →
    arguments.length ≠ parameters.length →
    Derives (.call callee arguments l) e s
      (.error (.unlocated (.wrongArity parameters.length arguments.length))) o s₁
  | call_other {callee arguments l e s x o s₁} : Derives callee e s (.ok x) o s₁ →
    ¬ x.IsClosure →
    Derives (.call callee arguments l) e s (.error (.unlocated (.notCallable x.tag))) o s₁
  | and_left {lhs rhs l e s o s₁} : Derives lhs e s (.ok (.bool false)) o s₁ →
    Derives (.binary .and lhs rhs l) e s (.ok (.bool false)) o s₁
  | and_right {lhs rhs l e s x o s₁ r o₁ s₂} : Derives lhs e s (.ok x) o s₁ → x ≠ .bool false →
    Derives rhs e s₁ r o₁ s₂ → Derives (.binary .and lhs rhs l) e s r (o ++ o₁) s₂
  | or_left {lhs rhs l e s x o s₁} : Derives lhs e s (.ok x) o s₁ → x ≠ .bool false →
    Derives (.binary .or lhs rhs l) e s (.ok x) o s₁
  | or_right {lhs rhs l e s o s₁ r o₁ s₂} : Derives lhs e s (.ok (.bool false)) o s₁ →
    Derives rhs e s₁ r o₁ s₂ → Derives (.binary .or lhs rhs l) e s r (o ++ o₁) s₂
  | binary {op lhs rhs l e s x o s₁ y o₁ s₂ r} : op ≠ .and → op ≠ .or →
    Derives lhs e s (.ok x) o s₁ → Derives rhs e s₁ (.ok y) o₁ s₂ → op.Applies x y r →
    Derives (.binary op lhs rhs l) e s r (o ++ o₁) s₂
  | binary_right {op lhs rhs l e s x o s₁ halt o₁ s₂} : op ≠ .and → op ≠ .or →
    Derives lhs e s (.ok x) o s₁ → Derives rhs e s₁ (.error halt) o₁ s₂ →
    Derives (.binary op lhs rhs l) e s (.error halt) (o ++ o₁) s₂
  | tuple {lhs rhs l e s x o s₁ y o₁ s₂} : Derives lhs e s (.ok x) o s₁ →
    Derives rhs e s₁ (.ok y) o₁ s₂ →
    Derives (.tuple lhs rhs l) e s (.ok (.tuple x y)) (o ++ o₁) s₂
  | tuple_right {lhs rhs l e s x o s₁ halt o₁ s₂} : Derives lhs e s (.ok x) o s₁ →
    Derives rhs e s₁ (.error halt) o₁ s₂ →
    Derives (.tuple lhs rhs l) e s (.error halt) (o ++ o₁) s₂
  | first {operand l e s x y o s₁} : Derives operand e s (.ok (.tuple x y)) o s₁ →
    Derives (.first operand l) e s (.ok x) o s₁
  | first_other {operand l e s x o s₁} : Derives operand e s (.ok x) o s₁ → ¬ x.IsTuple →
    Derives (.first operand l) e s (.error (.unlocated (.notATuple x.tag "First"))) o s₁
  | second {operand l e s x y o s₁} : Derives operand e s (.ok (.tuple x y)) o s₁ →
    Derives (.second operand l) e s (.ok y) o s₁
  | second_other {operand l e s x o s₁} : Derives operand e s (.ok x) o s₁ → ¬ x.IsTuple →
    Derives (.second operand l) e s (.error (.unlocated (.notATuple x.tag "Second"))) o s₁

/-- `DerivesAll nodes e s result text s'`: the same for several nodes, first to last, of which the
first that fails is the last one evaluated. -/
inductive DerivesAll :
    List Node → ScopeId → Store → Except Halt (List Value) → String → Store → Prop
  | nil {e s} : DerivesAll [] e s (.ok []) "" s
  | cons {node nodes e s x o s₁ xs o₁ s₂} : Derives node e s (.ok x) o s₁ →
    DerivesAll nodes e s₁ (.ok xs) o₁ s₂ →
    DerivesAll (node :: nodes) e s (.ok (x :: xs)) (o ++ o₁) s₂
  | head {node nodes e s halt o s₁} : Derives node e s (.error halt) o s₁ →
    DerivesAll (node :: nodes) e s (.error halt) o s₁
  | tail {node nodes e s x o s₁ halt o₁ s₂} : Derives node e s (.ok x) o s₁ →
    DerivesAll nodes e s₁ (.error halt) o₁ s₂ →
    DerivesAll (node :: nodes) e s (.error halt) (o ++ o₁) s₂

end

end Rinha
