import Rinha.Evaluation

/-!
# Plans

Evaluating a node is a sequence of a few kinds of action: evaluating a child in the scope of the
node, printing, binding, looking up, making a closure, entering one.  The plan of a node is that
sequence as data, in which what comes after a child depends on the value of the child.  Statements
about evaluation are proved by induction on plans, so that the kinds of node are taken apart only
where a statement depends on them.

## Main definitions

* `Plan` -- what is left to do in the evaluation of a node.
* `Plan.ofNode` -- everything that evaluating a node does.
* `Plan.run` -- carries out a plan, given how to evaluate nodes.
* `evaluateBody_eq_run` -- evaluating a node carries out its plan.
* `evaluate_refused`, `evaluate_granted` -- evaluation within a budget, in terms of plans.
* `interpret_apply` -- a whole program, in terms of evaluation within a budget.
* `evaluate_induction` -- what holds of all ways to end holds of evaluation.
-/

namespace Rinha

/-- What is left to do in the evaluation of a node. -/
inductive Plan where
  /-- Nothing: the result is known. -/
  | done (result : Except Halt Value)
  /-- Print a text. -/
  | write (text : String) (rest : Plan)
  /-- Bind a name in the scope of the node. -/
  | define (name : String) (value : Value) (rest : Plan)
  /-- Yield the value of a name. -/
  | fetch (name : String)
  /-- Yield a new closure over the scope of the node. -/
  | close (parameters : List String) (body : Node)
  /-- Evaluate a child in the scope of the node, and go on with its value. -/
  | child (node : Node) (rest : Value → Plan)
  /-- Evaluate the body of a closure in a new scope that binds its parameters. -/
  | enter (id : Nat) (parameters : List String) (body : Node) (captured : ScopeId)
      (values : List Value)

/-! ## Computations at a machine -/

namespace Run

variable {α β : Type}

theorem bind_apply (first : Run α) (next : α → Run β) (m : Machine) :
    (first >>= next) m =
      match first m with
      | .ok value m' => next value m'
      | .error halt m' => .error halt m' := by
  simp only [bind, EStateM.bind]
  cases first m <;> rfl

theorem get_apply (m : Machine) : (get : Run Machine) m = .ok m m := rfl

theorem lookup_apply (scope : ScopeId) (name : String) (m : Machine) :
    lookup scope name m =
      match m.store.lookup scope name with
      | some value => .ok value m
      | none => .error (.unlocated (.unboundVariable name)) m := by
  simp only [lookup, bind_apply, get_apply]
  cases m.store.lookup scope name <;> rfl

end Run

/-! ## The machine after an action -/

namespace Machine

/-- The machine after an entry to the trace, if the run is traced. -/
def noted (m : Machine) (settings : Settings) (entry : TraceEntry) : Machine :=
  if settings.debug then { m with trace := m.trace.push entry } else m

/-- The machine after a text is printed. -/
def wrote (m : Machine) (text : String) : Machine :=
  { m with output := m.output ++ text }

/-- The machine after a name is bound in a scope. -/
def bound (m : Machine) (settings : Settings) (scope : ScopeId) (name : String) (value : Value) :
    Machine :=
  { m with store := m.store.define scope name value }.noted settings (.bound name value.tag)

/-- The machine after a closure is made over a scope. -/
def closed (m : Machine) (parameters : List String) (body : Node) (scope : ScopeId) : Machine :=
  { m with store := (m.store.newClosure parameters body scope).2 }

/-- The machine after the scope of a call is made. -/
def entered (m : Machine) (settings : Settings) (parameters : List String) (captured : ScopeId)
    (values : List Value) : Machine :=
  { m with
    store := (m.store.newScope (some captured) (.ofArguments parameters values)).2 }.noted
      settings (.calling parameters)

/-- The machine one level deeper. -/
def deeper (m : Machine) : Machine :=
  { m with depth := m.depth + 1 }

/-- The machine as the evaluation of a node is granted its depth. -/
def started (m : Machine) (settings : Settings) (kind : Node.Kind) : Machine :=
  (m.noted settings (.evaluating kind m.depth)).deeper

theorem note_apply (m : Machine) (settings : Settings) (entry : TraceEntry) :
    Run.note settings entry m = .ok () (m.noted settings entry) := by
  unfold Run.note noted; split <;> rfl

/-- The machine as the evaluation of a node ends. -/
def ended (m : Machine) : Machine :=
  { m with depth := m.depth - 1 }

@[simp] theorem store_noted (m : Machine) (settings : Settings) (entry : TraceEntry) :
    (m.noted settings entry).store = m.store := by
  unfold noted; split <;> rfl

@[simp] theorem output_noted (m : Machine) (settings : Settings) (entry : TraceEntry) :
    (m.noted settings entry).output = m.output := by
  unfold noted; split <;> rfl

@[simp] theorem depth_noted (m : Machine) (settings : Settings) (entry : TraceEntry) :
    (m.noted settings entry).depth = m.depth := by
  unfold noted; split <;> rfl

@[simp] theorem store_wrote (m : Machine) (text : String) : (m.wrote text).store = m.store := rfl

@[simp] theorem output_wrote (m : Machine) (text : String) :
    (m.wrote text).output = m.output ++ text := rfl

@[simp] theorem depth_wrote (m : Machine) (text : String) : (m.wrote text).depth = m.depth := rfl

section

variable (m : Machine) (settings : Settings) (scope captured : ScopeId) (name : String)
  (value : Value) (parameters : List String) (body : Node) (values : List Value) (kind : Node.Kind)

@[simp] theorem store_bound :
    (m.bound settings scope name value).store = m.store.define scope name value := by
  simp [bound]

@[simp] theorem output_bound : (m.bound settings scope name value).output = m.output := by
  simp [bound]

@[simp] theorem depth_bound : (m.bound settings scope name value).depth = m.depth := by
  simp [bound]

@[simp] theorem store_closed :
    (m.closed parameters body scope).store = (m.store.newClosure parameters body scope).2 := rfl

@[simp] theorem output_closed : (m.closed parameters body scope).output = m.output := rfl

@[simp] theorem depth_closed : (m.closed parameters body scope).depth = m.depth := rfl

@[simp] theorem store_entered :
    (m.entered settings parameters captured values).store =
      (m.store.newScope (some captured) (.ofArguments parameters values)).2 := by
  simp [entered]

@[simp] theorem output_entered :
    (m.entered settings parameters captured values).output = m.output := by
  simp [entered]

@[simp] theorem depth_entered :
    (m.entered settings parameters captured values).depth = m.depth := by
  simp [entered]

@[simp] theorem store_ended : m.ended.store = m.store := rfl

@[simp] theorem output_ended : m.ended.output = m.output := rfl

@[simp] theorem depth_ended : m.ended.depth = m.depth - 1 := rfl

@[simp] theorem store_started : (m.started settings kind).store = m.store := by
  simp [started, deeper]

@[simp] theorem output_started : (m.started settings kind).output = m.output := by
  simp [started, deeper]

@[simp] theorem depth_started : (m.started settings kind).depth = m.depth + 1 := by
  simp [started, deeper]

end

end Machine

namespace Run

variable {α : Type}

/-- The machine that a computation leaves, whichever way it ends. -/
def machine : EStateM.Result Halt Machine α → Machine
  | .ok _ m | .error _ m => m

@[simp] theorem machine_ok (value : α) (m : Machine) :
    machine (.ok value m : EStateM.Result Halt Machine α) = m := rfl

@[simp] theorem machine_error (halt : Halt) (m : Machine) :
    machine (.error halt m : EStateM.Result Halt Machine α) = m := rfl

/-- Why a computation stopped short of a value, if it did. -/
def halt? : EStateM.Result Halt Machine α → Option Halt
  | .ok .. => none
  | .error halt _ => some halt

/-- The end of the evaluation of a node, in terms of how its plan ended. -/
def leave (location : Option Location) :
    EStateM.Result Halt Machine α → EStateM.Result Halt Machine α
  | .ok value m => .ok value m.ended
  | .error halt m => .error (halt.within location) m.ended

@[simp] theorem machine_leave (location : Option Location)
    (result : EStateM.Result Halt Machine α) :
    machine (leave location result) = (machine result).ended := by
  cases result <;> rfl

theorem nested_apply (location : Option Location) (body : Run α) (m : Machine) :
    nested location body m = leave location (body m.deeper) := by
  simp only [nested, Machine.deeper]
  cases body { m with depth := m.depth + 1 } <;> rfl

end Run

/-! ## Plans of nodes, and what they do -/

namespace Plan

/-- Evaluates several children, first to last, and goes on with their values. -/
def children : List Node → (List Value → Plan) → Plan
  | [], rest => rest []
  | node :: nodes, rest =>
    child node fun value => children nodes fun values => rest (value :: values)

/-- Evaluates one last child, whose value is the result. -/
def last (node : Node) : Plan :=
  child node fun value => done (.ok value)

/-- A failure of the program, whose location is not known yet. -/
def fail (e : Error) : Plan :=
  done (.error (.unlocated e))

/-- What a call does once its callee is a value. -/
def calling (arguments : List Node) : Value → Plan
  | .closure id parameters body captured =>
    if arguments.length ≠ parameters.length then
      fail (.wrongArity parameters.length arguments.length)
    else children arguments fun values => enter id parameters body captured values
  | value => fail (.notCallable value.tag)

/-- What taking a component does once its operand is a value. -/
def component (name : String) (pick : Value → Value → Value) : Value → Plan
  | .tuple left right => done (.ok (pick left right))
  | value => fail (.notATuple value.tag name)

/-- Everything that evaluating a node does once its depth is granted. -/
def ofNode : Node → Plan
  | .str value _ => done (.ok (.str value))
  | .int value _ => done (.ok (.int value))
  | .bool value _ => done (.ok (.bool value))
  | .print operand _ => child operand fun value =>
    match value.printed with
    | .ok text => write text (done (.ok value))
    | .error refusal => done (.error (.digits refusal))
  | .letIn name operand next _ => child operand fun value => define name value (last next)
  | .var name _ => fetch name
  | .cond condition then_ otherwise _ => child condition fun value =>
    if value.isTruthy then last then_ else last otherwise
  | .function parameters body _ => close parameters body
  | .call callee arguments _ => child callee (calling arguments)
  | .binary op lhs rhs _ => child lhs fun left =>
    match op with
    | .and => if left.isTruthy then last rhs else done (.ok left)
    | .or => if left.isTruthy then done (.ok left) else last rhs
    | op => child rhs fun right => done (op.apply left right)
  | .tuple lhs rhs _ => child lhs fun left => child rhs fun right => done (.ok (.tuple left right))
  | .first operand _ => child operand (component "First" fun left _ => left)
  | .second operand _ => child operand (component "Second" fun _ right => right)

section

variable {arguments : List Node} {parameters : List String}

theorem calling_of_length_eq (h : arguments.length = parameters.length) (id : Nat) (body : Node)
    (captured : ScopeId) :
    calling arguments (.closure id parameters body captured) =
      children arguments fun values => enter id parameters body captured values := by
  simp [calling, h]

theorem calling_of_length_ne (h : arguments.length ≠ parameters.length) (id : Nat) (body : Node)
    (captured : ScopeId) :
    calling arguments (.closure id parameters body captured) =
      fail (.wrongArity parameters.length arguments.length) := by
  simp [calling, h]

end

/-- Carries out a plan in a scope, given how to evaluate nodes. -/
def run (settings : Settings) (eval : Node → ScopeId → Run Value) (scope : ScopeId) :
    Plan → Machine → EStateM.Result Halt Machine Value
  | done (.ok value), m => .ok value m
  | done (.error halt), m => .error halt m
  | write text rest, m => rest.run settings eval scope (m.wrote text)
  | define name value rest, m => rest.run settings eval scope (m.bound settings scope name value)
  | fetch name, m =>
    match m.store.lookup scope name with
    | some value => .ok value m
    | none => .error (.unlocated (.unboundVariable name)) m
  | close parameters body, m =>
    .ok (m.store.newClosure parameters body scope).1 (m.closed parameters body scope)
  | child node rest, m =>
    match eval node scope m with
    | .ok value m' => (rest value).run settings eval scope m'
    | .error halt m' => .error halt m'
  | enter _ parameters body captured values, m =>
    eval body m.store.scopes.size (m.entered settings parameters captured values)

section

variable (settings : Settings) (eval : Node → ScopeId → Run Value) (scope : ScopeId) (m : Machine)

theorem run_done (result : Except Halt Value) :
    (done result).run settings eval scope m = Run.lift result m := by
  cases result <;> rfl

/-- One last child gives the result, however it ends. -/
@[simp] theorem run_last (node : Node) :
    (last node).run settings eval scope m = eval node scope m := by
  simp only [last, run]
  cases eval node scope m <;> rfl

/-- Children are evaluated as a list of nodes is. -/
theorem run_children (nodes : List Node) (rest : List Value → Plan) :
    (children nodes rest).run settings eval scope m =
      match evaluateAll (eval · scope) nodes m with
      | .ok values m' => (rest values).run settings eval scope m'
      | .error halt m' => .error halt m' := by
  induction nodes generalizing rest m with
  | nil => rfl
  | cons node nodes ih =>
    simp only [children, run, evaluateAll, Run.bind_apply]
    cases eval node scope m with
    | error halt m' => rfl
    | ok value m' =>
      simp only [ih]
      cases evaluateAll (eval · scope) nodes m' <;> rfl

end

end Plan

/-- Evaluating a node carries out its plan. -/
theorem evaluateBody_eq_run (settings : Settings) (eval : Node → ScopeId → Run Value) (node : Node)
    (scope : ScopeId) (m : Machine) :
    evaluateBody settings eval node scope m = (Plan.ofNode node).run settings eval scope m := by
  cases node with
  | str value l => rfl
  | int value l => rfl
  | bool value l => rfl
  | var name l =>
    simp only [evaluateBody, Plan.ofNode, Plan.run, Run.lookup_apply]
  | function parameters body l => rfl
  | print operand l =>
    simp only [evaluateBody, Plan.ofNode, Plan.run, Run.bind_apply]
    cases eval operand scope m with
    | error halt m' => rfl
    | ok value m' =>
      simp only [Halt.ofConversion]
      cases value.printed <;> rfl
  | letIn name operand next l =>
    simp only [evaluateBody, Plan.ofNode, Plan.run, Run.bind_apply]
    cases eval operand scope m with
    | error halt m' => rfl
    | ok value m' =>
      simp only [Machine.note_apply, Plan.run_last]
      rfl
  | cond condition then_ otherwise l =>
    simp only [evaluateBody, Plan.ofNode, Plan.run, Run.bind_apply]
    cases eval condition scope m with
    | error halt m' => rfl
    | ok value m' => cases h : value.isTruthy <;> simp [h]
  | call callee arguments l =>
    simp only [evaluateBody, Plan.ofNode, Plan.run, Run.bind_apply]
    cases eval callee scope m with
    | error halt m' => rfl
    | ok value m' =>
      cases value with
      | closure id parameters body captured =>
        by_cases h : arguments.length = parameters.length
        · simp only [Plan.calling_of_length_eq h, Plan.run_children, h, ne_eq, not_true_eq_false,
            ↓reduceIte]
          simp only [Run.bind_apply]
          cases evaluateAll (eval · scope) arguments m' with
          | error halt m'' => rfl
          | ok values m'' =>
            simp only [Machine.note_apply]
            rfl
        · simp only [Plan.calling_of_length_ne h, ne_eq, h, not_false_eq_true, ↓reduceIte]
          rfl
      | _ => rfl
  | binary op lhs rhs l =>
    simp only [evaluateBody, Plan.ofNode, Plan.run, Run.bind_apply]
    cases eval lhs scope m with
    | error halt m' => rfl
    | ok left m' =>
      cases op with
      | and => cases h : left.isTruthy <;> simp [h]; rfl
      | or => cases h : left.isTruthy <;> simp [h]; rfl
      | _ =>
        simp only [Run.bind_apply, Plan.run]
        cases eval rhs scope m' with
        | error halt m'' => rfl
        | ok right m'' => exact (Plan.run_done ..).symm
  | tuple lhs rhs l =>
    simp only [evaluateBody, Plan.ofNode, Plan.run, Run.bind_apply]
    cases eval lhs scope m with
    | error halt m' => rfl
    | ok left m' =>
      simp only
      cases eval rhs scope m' <;> rfl
  | first operand l =>
    simp only [evaluateBody, Plan.ofNode, Plan.run, Run.bind_apply]
    cases eval operand scope m with
    | error halt m' => rfl
    | ok value m' => cases value <;> rfl
  | second operand l =>
    simp only [evaluateBody, Plan.ofNode, Plan.run, Run.bind_apply]
    cases eval operand scope m with
    | error halt m' => rfl
    | ok value m' => cases value <;> rfl

/-! ## Evaluation in terms of plans -/

section

variable (settings : Settings) (budget : Nat) (node : Node) (scope : ScopeId) (m : Machine)

/-- A node beyond the depth allowed is refused. -/
theorem evaluate_refused (h : settings.maxDepth ≤ m.depth) :
    evaluate settings (budget + 1) node scope m =
      .error (.refusal settings.maxDepth node.location)
        (m.noted settings (.evaluating node.kind m.depth)) := by
  simp only [evaluate, evaluateNode, Run.bind_apply, Run.get_apply, Machine.note_apply, if_pos h]
  rfl

/-- Any other node has its plan carried out one level deeper, with one unit of the budget less. -/
theorem evaluate_granted (h : m.depth < settings.maxDepth) :
    evaluate settings (budget + 1) node scope m =
      Run.leave node.location ((Plan.ofNode node).run settings (evaluate settings budget) scope
        (m.started settings node.kind)) := by
  have hbody : evaluateBody settings (evaluate settings budget) node scope =
      (Plan.ofNode node).run settings (evaluate settings budget) scope :=
    funext fun m => evaluateBody_eq_run settings (evaluate settings budget) node scope m
  simp only [evaluate, evaluateNode, Run.bind_apply, Run.get_apply, Machine.note_apply, hbody,
    if_neg (Int.not_le.2 h)]
  exact Run.nested_apply ..

end

/-- Evaluation from the depth that the machine is at is evaluation within some budget. -/
theorem evaluateHere_apply (settings : Settings) (host : Limits) (node : Node) (scope : ScopeId)
    (m : Machine) :
    evaluateHere settings host node scope m =
      evaluate settings (settings.budgetOn host m.depth) node scope m := by
  simp only [evaluateHere, Run.bind_apply, Run.get_apply]

/-- A limit that is reached and too long to be written stops any evaluation without a wording. -/
theorem evaluateHere_unworded {maxDepth : Int} {debug : Bool} {host : Limits} {m : Machine}
    (hlong : decimalBound ≤ maxDepth.natAbs) (hdepth : maxDepth ≤ m.depth)
    (hhost : 0 < host.evaluating debug) (node : Node) (scope : ScopeId) :
    evaluateHere ⟨maxDepth, debug⟩ host node scope m =
      .error (.unworded .writing) (m.noted ⟨maxDepth, debug⟩ (.evaluating node.kind m.depth)) := by
  let settings : Settings := ⟨maxDepth, debug⟩
  have hpos : 0 < settings.budgetOn host m.depth := Nat.lt_min.2 ⟨Nat.succ_pos _, hhost⟩
  obtain ⟨budget, hbudget⟩ := Nat.exists_eq_succ_of_ne_zero (Nat.ne_of_gt hpos)
  rw [evaluateHere_apply, hbudget, evaluate_refused settings budget node scope m hdepth,
    Halt.refusal_of_le hlong]

/-- Under a depth so low that it cannot be written, every node is refused without a wording. -/
theorem exists_evaluateHere_unworded : ∃ low : Int, low ≤ 0 ∧
    ∀ (node : Node) (scope : ScopeId) (m : Machine), 0 ≤ m.depth →
      evaluateHere ⟨low, false⟩ .standard node scope m = .error (.unworded .writing) m := by
  have hbeyond (n : Nat) : ∃ low : Int, low ≤ 0 ∧ n ≤ low.natAbs := ⟨-n, by omega, by omega⟩
  obtain ⟨low, hlow, hlong⟩ := hbeyond decimalBound
  have hhost : 0 < Limits.standard.evaluating false := by decide
  exact ⟨low, hlow, fun node scope m hm =>
    evaluateHere_unworded hlong (Int.le_trans hlow hm) hhost node scope⟩

/-- The end of a program that was run from depth zero: the depth is what it was before. -/
def Run.conclude {α : Type} (settings : Settings) (depth : Int) :
    EStateM.Result Halt Machine α → EStateM.Result Halt Machine α
  | .ok value m => .ok value { m with depth := depth }
  | .error halt m => .error (settings.exhausted halt) { m with depth := depth }

/-- What the host could follow ends a program as it ended the evaluation. -/
theorem Settings.exhausted_of_ne_nesting {halt : Halt} (h : halt ≠ .nesting) (settings : Settings) :
    settings.exhausted halt = halt := by
  cases halt with
  | nesting => exact absurd rfl h
  | _ => rfl

theorem evaluateProgram_apply (settings : Settings) (host : Limits) (node : Node) (scope : ScopeId)
    (m : Machine) :
    evaluateProgram settings host node scope m =
      Run.conclude settings m.depth
        (evaluate settings (settings.budgetOn host 0) node scope { m with depth := 0 }) := by
  simp only [evaluateProgram, evaluateHere_apply]
  cases evaluate settings (settings.budgetOn host 0) node scope { m with depth := 0 } <;> rfl

/-- The machine as a program starts: at depth zero, with a new scope that binds nothing. -/
def Machine.fresh (m : Machine) : Machine :=
  { m with store := (m.store.newScope none []).2, depth := 0 }

/-- A program is evaluated within some budget in the scope that is made for it. -/
theorem interpret_apply (settings : Settings) (host : Limits) (root : Node) (m : Machine) :
    interpret settings host root m =
      Run.conclude settings m.depth
        (evaluate settings (settings.budgetOn host 0) root m.store.scopes.size m.fresh) := by
  have hnew : Run.newScope none [] m =
      .ok m.store.scopes.size { m with store := (m.store.newScope none []).2 } := rfl
  simp only [interpret, Run.bind_apply, hnew, evaluateProgram_apply]
  rfl

/-- What holds however an evaluation ends: it is shown for an evaluation without a budget, for a
refused node, and for a node whose plan is carried out by an evaluation that has the property. -/
theorem evaluate_induction {settings : Settings}
    {P : Node → ScopeId → Machine → EStateM.Result Halt Machine Value → Prop}
    (spent : ∀ node scope m, P node scope m (.error .nesting m))
    (refused : ∀ node scope m, settings.maxDepth ≤ m.depth →
      P node scope m (.error (.refusal settings.maxDepth node.location)
        (m.noted settings (.evaluating node.kind m.depth))))
    (granted : ∀ eval : Node → ScopeId → Run Value,
      (∀ node scope m, P node scope m (eval node scope m)) →
      ∀ node scope m, m.depth < settings.maxDepth →
        P node scope m (Run.leave node.location
          ((Plan.ofNode node).run settings eval scope (m.started settings node.kind))))
    (budget : Nat) (node : Node) (scope : ScopeId) (m : Machine) :
    P node scope m (evaluate settings budget node scope m) := by
  induction budget generalizing node scope m with
  | zero => exact spent node scope m
  | succ budget ih =>
    by_cases h : settings.maxDepth ≤ m.depth
    · rw [evaluate_refused settings budget node scope m h]
      exact refused node scope m h
    · have hlt : m.depth < settings.maxDepth := Int.not_le.1 h
      rw [evaluate_granted settings budget node scope m hlt]
      exact granted (evaluate settings budget) ih node scope m hlt

end Rinha
