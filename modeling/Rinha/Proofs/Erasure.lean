import Rinha.Proofs.Scopes
import Rinha.Proofs.Transcript
import Rinha.Proofs.Labels
import Rinha.Proofs.Values
import Rinha.Proofs.Yield

/-!
# Locations have no bearing on evaluation

Erasing the locations of a tree, and those in the bodies of all closures of a store, commutes with
evaluation.  What is left of a run is the same run, which ends with the same value up to locations,
or with the same failure, but for the location of an error.  So two runs that start from the same up
to locations print the same and end in the same way.

## Main definitions

* `Value.bare`, `Store.bare`, `Machine.bare` -- what is left without locations.
* `Plan.Erases` -- a plan is what is left of another one without locations.
* `evaluate_bare` -- erasing locations commutes with evaluation.
* `Run.SameUpToLocations` -- two runs that differ in nothing but locations.
-/

namespace Rinha

/-! ## Without locations -/

/-- A value without the locations in the bodies of its closures. -/
def Value.bare : Value → Value
  | .int value => .int value
  | .str value => .str value
  | .bool value => .bool value
  | .tuple left right => .tuple left.bare right.bare
  | .closure id parameters body scope => .closure id parameters body.bare scope
  | .foreign tag payload => .foreign tag payload

/-- A store without the locations in the bodies of its closures. -/
def Store.bare (store : Store) : Store :=
  store.mapValues Value.bare

/-- A machine without the locations in the bodies of the closures that it holds. -/
def Machine.bare (m : Machine) : Machine :=
  { m with store := m.store.bare }

/-- A result without its locations: those that `f` takes away from a value, and that of an error. -/
def Halt.eraseFrom {α : Type} (f : α → α) : Except Halt α → Except Halt α
  | .ok a => .ok (f a)
  | .error halt => .error halt.unplaced

/-- The end of an evaluation without locations. -/
def Run.bare : EStateM.Result Halt Machine Value → EStateM.Result Halt Machine Value
  | .ok value m => .ok value.bare m.bare
  | .error halt m => .error halt.unplaced m.bare

@[simp] theorem Run.machine_bare (result : EStateM.Result Halt Machine Value) :
    machine (bare result) = (machine result).bare := by
  cases result <;> rfl

@[simp] theorem Node.kind_bare (node : Node) : node.bare.kind = node.kind := by
  cases node <;> simp only [bare, kind]

@[simp] theorem Node.location_bare (node : Node) : node.bare.location = none := by
  cases node <;> simp only [bare, location]

theorem Halt.unplaced_within_none (halt : Halt) :
    halt.unplaced.within none = halt.unplaced := by
  rcases halt with ⟨e, l⟩ | _ | _ | _ | _ <;> rfl

theorem Halt.unplaced_refusal (maxDepth : Int) (location : Option Location) :
    (refusal maxDepth location).unplaced = refusal maxDepth none := by
  rcases refusal_cases maxDepth with ⟨limit, h⟩ | h <;> simp [h, unplaced]

/-! ## Values and operators -/

namespace Value

variable (x y : Value)

@[simp] theorem tag_bare : x.bare.tag = x.tag := by
  cases x <;> rfl

@[simp] theorem isTruthy_bare : x.bare.isTruthy = x.isTruthy := by
  cases x <;> rfl

@[simp] theorem display_bare : x.bare.display = x.display := by
  induction x with
  | tuple a b iha ihb => simp only [bare, display, iha, ihb]
  | _ => rfl

@[simp] theorem printed_bare : x.bare.printed = x.printed := by
  simp only [printed, display_bare]

/-- Equality does not look into the bodies of closures. -/
@[simp] theorem equal_bare : x.bare.equal y.bare = x.equal y := by
  induction x generalizing y with
  | tuple a b iha ihb =>
    cases y with
    | tuple c d => simp only [bare, equal, iha, ihb]
    | _ => rfl
  | _ => cases y <;> rfl

theorem bare_of_tag {x : Value} (h : x.tag ∉ compound) : x.bare = x := by
  cases x with
  | tuple a b => simp [tag, compound] at h
  | closure id parameters body scope => simp [tag, compound] at h
  | _ => rfl

theorem resembles_bare : x.Resembles x.bare :=
  ⟨x.tag_bare.symm, x.display_bare.symm, fun h => (bare_of_tag h).symm⟩

end Value

theorem Halt.OfOperands.unplaced_eq {halt : Halt} (h : halt.OfOperands) :
    halt.unplaced = halt := by
  cases h <;> rfl

/-- Operators do not look at locations, and have none in what they yield. -/
theorem Operator.apply_bare (op : Operator) (x y : Value) :
    op.apply x.bare y.bare = Halt.eraseFrom Value.bare (op.apply x y) := by
  rw [← op.apply_eq_of_resembles x.resembles_bare y.resembles_bare (x.equal_bare y).symm]
  cases h : op.apply x y with
  | ok z => rw [Halt.eraseFrom, Value.bare_of_tag (Operator.tag_of_apply h)]
  | error halt => rw [Halt.eraseFrom, (Operator.ofOperands_of_apply h).unplaced_eq]

/-! ## Plans -/

namespace Plan

/-- A plan is what is left of another one without locations. -/
inductive Erases : Plan → Plan → Prop
  | done (result : Except Halt Value) :
    Erases (done result) (done (Halt.eraseFrom Value.bare result))
  | write (text : String) {rest rest' : Plan} :
    Erases rest rest' → Erases (write text rest) (write text rest')
  | define (name : String) (value : Value) {rest rest' : Plan} :
    Erases rest rest' → Erases (define name value rest) (define name value.bare rest')
  | fetch (name : String) : Erases (fetch name) (fetch name)
  | close (parameters : List String) (body : Node) :
    Erases (close parameters body) (close parameters body.bare)
  | child (node : Node) {rest rest' : Value → Plan} :
    (∀ value, Erases (rest value) (rest' value.bare)) →
    Erases (child node rest) (child node.bare rest')
  | enter (id : Nat) (parameters : List String) (body : Node) (captured : ScopeId)
      (values : List Value) :
    Erases (enter id parameters body captured values)
      (enter id parameters body.bare captured (values.map Value.bare))

theorem erases_last (node : Node) : Erases (last node) (last node.bare) :=
  .child node fun value => .done (.ok value)

theorem erases_fail (e : Error) : Erases (fail e) (fail e) :=
  .done (.error (.unlocated e))

theorem erases_children {nodes : List Node} {rest rest' : List Value → Plan}
    (hrest : ∀ values, Erases (rest values) (rest' (values.map Value.bare))) :
    Erases (children nodes rest) (children (nodes.map Node.bare) rest') := by
  induction nodes generalizing rest rest' with
  | nil => exact hrest []
  | cons node nodes ih => exact .child node fun value => ih fun values => hrest (value :: values)

theorem erases_calling (arguments : List Node) (value : Value) :
    Erases (calling arguments value) (calling (arguments.map Node.bare) value.bare) := by
  cases value with
  | closure id parameters body captured =>
    by_cases h : arguments.length = parameters.length
    · have h' : (arguments.map Node.bare).length = parameters.length := by
        rw [List.length_map, h]
      rw [Value.bare, calling_of_length_eq h, calling_of_length_eq h']
      exact erases_children fun values => .enter id parameters body captured values
    · have h' : (arguments.map Node.bare).length ≠ parameters.length := by
        rwa [List.length_map]
      rw [Value.bare, calling_of_length_ne h, calling_of_length_ne h', List.length_map]
      exact erases_fail _
  | _ => exact erases_fail _

theorem erases_component (name : String) {pick : Value → Value → Value}
    (hpick : ∀ left right, (pick left right).bare = pick left.bare right.bare) (value : Value) :
    Erases (component name pick value) (component name pick value.bare) := by
  cases value with
  | tuple left right =>
    rw [Value.bare, component, component, ← hpick]
    exact .done (.ok (pick left right))
  | _ => exact erases_fail _

/-- The plan of a tree without its locations is what is left of the plan of the tree. -/
theorem erases_ofNode (node : Node) : Erases (ofNode node) (ofNode node.bare) := by
  cases node with
  | str value l => exact .done (.ok (.str value))
  | int value l => exact .done (.ok (.int value))
  | bool value l => exact .done (.ok (.bool value))
  | var name l => exact .fetch name
  | function parameters body l => exact .close parameters body
  | print operand l =>
    refine .child operand fun value => ?_
    rw [Value.printed_bare]
    cases value.printed with
    | ok text => exact .write text (.done (.ok value))
    | error refusal => exact .done (.error (.digits refusal))
  | letIn name operand next l =>
    exact .child operand fun value => .define name value (erases_last next)
  | cond condition then_ otherwise l =>
    refine .child condition fun value => ?_
    rw [Value.isTruthy_bare]
    split <;> exact erases_last _
  | call callee arguments l =>
    rw [Node.bare, Node.bareAll_eq_map]
    exact .child callee (erases_calling arguments)
  | binary op lhs rhs l =>
    refine .child lhs fun left => ?_
    have hop : ∀ op : Operator, Erases (child rhs fun right => done (op.apply left right))
        (child rhs.bare fun right => done (op.apply left.bare right)) :=
      fun op => .child rhs fun right => op.apply_bare left right ▸ .done (op.apply left right)
    cases op with
    | and =>
      simp only [Value.isTruthy_bare]
      split
      · exact erases_last rhs
      · exact .done (.ok left)
    | or =>
      simp only [Value.isTruthy_bare]
      split
      · exact .done (.ok left)
      · exact erases_last rhs
    | _ => exact hop _
  | tuple lhs rhs l =>
    exact .child lhs fun left => .child rhs fun right => .done (.ok (.tuple left right))
  | first operand l => exact .child operand (erases_component "First" fun _ _ => rfl)
  | second operand l => exact .child operand (erases_component "Second" fun _ _ => rfl)

end Plan

/-! ## Machines -/

namespace Machine

variable (m : Machine) (settings : Settings) (scope captured : ScopeId) (name : String)
  (value : Value) (parameters : List String) (body : Node) (values : List Value)

@[simp] theorem store_bare : m.bare.store = m.store.bare := rfl

@[simp] theorem output_bare : m.bare.output = m.output := rfl

@[simp] theorem depth_bare : m.bare.depth = m.depth := rfl

theorem noted_bare (entry : TraceEntry) :
    m.bare.noted settings entry = (m.noted settings entry).bare := by
  unfold noted; split <;> rfl

theorem bound_bare :
    m.bare.bound settings scope name value.bare = (m.bound settings scope name value).bare := by
  rw [bound, bound, ← noted_bare, Value.tag_bare, store_bare, Store.bare,
    ← Store.mapValues_define]
  rfl

theorem entered_bare :
    m.bare.entered settings parameters captured (values.map Value.bare) =
      (m.entered settings parameters captured values).bare := by
  rw [entered, entered, ← noted_bare, store_bare, Store.bare, ← Bindings.mapValues_ofArguments,
    ← Store.mapValues_newScope]
  rfl

theorem started_bare (kind : Node.Kind) :
    m.bare.started settings kind = (m.started settings kind).bare := by
  rw [started, started, noted_bare]
  rfl

end Machine

/-! ## Evaluation -/

theorem Run.leave_bare (location : Option Location)
    (result : EStateM.Result Halt Machine Value) :
    leave none (bare result) = bare (leave location result) := by
  cases result with
  | ok value m => rfl
  | error halt m =>
    rw [leave, bare, bare, leave, Halt.unplaced_within, Halt.unplaced_within_none]
    rfl

/-- Carrying out what is left of a plan leaves the same as carrying out the plan, if evaluating
nodes does. -/
theorem Plan.run_bare (settings : Settings) {eval : Node → ScopeId → Run Value}
    (heval : ∀ node scope (m : Machine), eval node.bare scope m.bare = Run.bare (eval node scope m))
    {plan plan' : Plan} (h : plan.Erases plan') (scope : ScopeId) (m : Machine) :
    plan'.run settings eval scope m.bare = Run.bare (plan.run settings eval scope m) := by
  induction h generalizing m with
  | done result => cases result <;> rfl
  | write text _ ih => exact ih (m.wrote text)
  | define name value _ ih => rw [run, run, Machine.bound_bare, ih]
  | fetch name =>
    rw [run, run, Machine.store_bare, Store.bare, Store.lookup_mapValues]
    cases m.store.lookup scope name <;> rfl
  | close parameters body => rfl
  | child node _ ih =>
    rw [run, run, heval]
    cases eval node scope m with
    | ok value m' => exact ih value m'
    | error halt m' => rfl
  | enter id parameters body captured values =>
    rw [run, run, Machine.entered_bare, heval, Machine.store_bare, Store.bare,
      Store.size_mapValues]

/-- Erasing locations commutes with evaluation. -/
theorem evaluate_bare (settings : Settings) (budget : Nat) (node : Node) (scope : ScopeId)
    (m : Machine) :
    evaluate settings budget node.bare scope m.bare =
      Run.bare (evaluate settings budget node scope m) := by
  induction budget generalizing node scope m with
  | zero => rfl
  | succ budget ih =>
    by_cases h : settings.maxDepth ≤ m.depth
    · rw [evaluate_refused settings budget node scope m h,
        evaluate_refused settings budget node.bare scope m.bare h, Node.kind_bare,
        Node.location_bare, Machine.noted_bare, Run.bare, Halt.unplaced_refusal]
      rfl
    · have hlt : m.depth < settings.maxDepth := Int.not_le.1 h
      rw [evaluate_granted settings budget node scope m hlt,
        evaluate_granted settings budget node.bare scope m.bare hlt, Node.kind_bare,
        Node.location_bare, Machine.started_bare,
        Plan.run_bare settings ih (Plan.erases_ofNode node), Run.leave_bare]

/-! ## Runs that differ in locations only -/

namespace Run

/-- Two evaluations end in the same way, up to locations: with values that are the same without
their locations, or with the same failure, of which an error may have another location. -/
inductive SameEnd :
    EStateM.Result Halt Machine Value → EStateM.Result Halt Machine Value → Prop
  | ok {x x' : Value} {m m' : Machine} : x.bare = x'.bare → SameEnd (.ok x m) (.ok x' m')
  | error (e : Error) (l l' : Option Location) {m m' : Machine} :
    SameEnd (.error (.error e l) m) (.error (.error e l') m')
  | halt (halt : Halt) {m m' : Machine} : SameEnd (.error halt m) (.error halt m')

/-- Two evaluations from two machines are the same up to locations: both print a text, end at the
same depth and in the same way, and leave stores that are the same without locations. -/
structure SameUpToLocations (m m' : Machine)
    (result result' : EStateM.Result Halt Machine Value) : Prop where
  output : ∃ text, (machine result).output = m.output ++ text ∧
    (machine result').output = m'.output ++ text
  depth : (machine result).depth = (machine result').depth
  store : (machine result).store.bare = (machine result').store.bare
  ends : SameEnd result result'

variable {result result' : EStateM.Result Halt Machine Value}

theorem sameEnd_of_bare_eq (h : bare result = bare result') : SameEnd result result' := by
  cases result with
  | ok x m =>
    cases result' with
    | ok x' m' =>
      simp only [bare, EStateM.Result.ok.injEq] at h
      exact .ok h.1
    | error halt' m' => cases h
  | error halt m =>
    cases result' with
    | ok x' m' => cases h
    | error halt' m' =>
      simp only [bare, EStateM.Result.error.injEq] at h
      obtain ⟨hhalt, -⟩ := h
      rcases halt with ⟨e, l⟩ | _ | _ | _ | _ <;> rcases halt' with ⟨e', l'⟩ | _ | _ | _ | _ <;>
        cases hhalt
      · exact .error e l l'
      all_goals exact .halt _

theorem SameEnd.alter (h : SameEnd result result') (f f' : Machine → Machine) :
    SameEnd (alter f result) (alter f' result') := by
  cases h with
  | ok hx => exact .ok hx
  | error e l l' => exact .error e l l'
  | halt halt => exact .halt halt

/-- Results that are the same without locations, of runs that go on from the records of two
machines. -/
theorem SameUpToLocations.of_bare_eq (h : bare result = bare result') (m m' : Machine) :
    SameUpToLocations m m' (alter (.after m.output m.trace) result)
      (alter (.after m'.output m'.trace) result') := by
  have hmachine : (machine result).bare = (machine result').bare := by
    rw [← machine_bare, ← machine_bare, h]
  have houtput : (machine result).output = (machine result').output := by
    rw [← Machine.output_bare, hmachine, Machine.output_bare]
  refine ⟨⟨(machine result).output, ?_, ?_⟩, ?_, ?_, (sameEnd_of_bare_eq h).alter _ _⟩
  · rw [machine_alter, Machine.output_after]
  · rw [machine_alter, Machine.output_after, houtput]
  · rw [machine_alter, machine_alter, Machine.depth_after, Machine.depth_after]
    rw [← Machine.depth_bare, hmachine, Machine.depth_bare]
  · rw [machine_alter, machine_alter, Machine.store_after, Machine.store_after]
    exact congrArg Machine.store hmachine

end Run

/-- Evaluations of one tree up to locations, from stores that are the same up to locations and from
one depth, are the same up to locations. -/
theorem evaluate_sameUpToLocations (settings : Settings) (budget : Nat) {node node' : Node}
    (hnode : node.bare = node'.bare) (scope : ScopeId) {m m' : Machine}
    (hstore : m.store.bare = m'.store.bare) (hdepth : m.depth = m'.depth) :
    Run.SameUpToLocations m m' (evaluate settings budget node scope m)
      (evaluate settings budget node' scope m') := by
  rw [evaluate_after settings budget node scope m, evaluate_after settings budget node' scope m']
  have hmachine : m.silent.bare = m'.silent.bare := by
    simp only [Machine.bare, Machine.silent, hstore, hdepth]
  refine .of_bare_eq ?_ m m'
  rw [← evaluate_bare, ← evaluate_bare, hnode, hmachine]

end Rinha
