import Rinha.Proofs.Failures

/-!
# Height and depth

Without calls, the nodes whose evaluation is in progress lie on a path down the tree, so that the
depth that an evaluation takes is bounded by the height of the tree.  Where every child of a node
has to be evaluated before the node has a value, the longest path is gone down too.  A tree without
calls and branches therefore has a value only within exactly that depth.

## Main definitions

* `Node.height` -- the height of a tree, in which functions are leaves.
* `Node.Throughout`, `Node.CallFree`, `Node.BranchFree` -- what holds at and below a node, outside
  functions.
* `height_of_cut` -- what a limit cuts short in a tree without calls is higher than the limit.
* `Plan.Needs`, `height_le_of_value` -- a tree without branches that has a value is not.
-/

namespace Rinha

/-! ## Height -/

namespace Node

mutual

/-- The height of a tree, counted from one.  The body of a function is no part of the tree. -/
def height : Node → Nat
  | .str .. | .int .. | .bool .. | .var .. | .function .. => 1
  | .print operand _ | .first operand _ | .second operand _ => 1 + operand.height
  | .letIn _ operand next _ => 1 + max operand.height next.height
  | .cond condition then_ otherwise _ =>
    1 + max condition.height (max then_.height otherwise.height)
  | .call callee arguments _ => 1 + max callee.height (heightAll arguments)
  | .binary _ lhs rhs _ | .tuple lhs rhs _ => 1 + max lhs.height rhs.height

/-- The height of the highest of several trees. -/
def heightAll : List Node → Nat
  | [] => 0
  | node :: nodes => max node.height (heightAll nodes)

end

theorem heightAll_le_iff {nodes : List Node} {bound : Nat} :
    heightAll nodes ≤ bound ↔ ∀ node ∈ nodes, node.height ≤ bound := by
  induction nodes with
  | nil => simp [heightAll]
  | cons node nodes ih => simp [heightAll, ih]

theorem height_pos (node : Node) : 0 < node.height := by
  cases node <;> simp only [height] <;> omega

/-- The height of a node is one more than that of the highest child. -/
theorem height_le_succ_iff {node : Node} {bound : Nat} :
    node.height ≤ bound + 1 ↔ ∀ child ∈ node.children, child.height ≤ bound := by
  have hsucc : ∀ n, 1 + n ≤ bound + 1 ↔ n ≤ bound := by omega
  cases node <;> simp [height, children, hsucc, heightAll_le_iff]

theorem height_lt_of_mem_children {node child : Node} (h : child ∈ node.children) :
    child.height < node.height := by
  obtain ⟨bound, hbound⟩ : ∃ bound, node.height = bound + 1 :=
    Nat.exists_eq_succ_of_ne_zero node.height_pos.ne'
  have hchild := height_le_succ_iff.1 hbound.le child h
  omega

/-- What holds of a node and of all nodes below it, outside the bodies of functions. -/
inductive Throughout (P : Node → Prop) : Node → Prop
  | intro {node : Node} : P node → (∀ child ∈ node.children, child.Throughout P) →
    Throughout P node

/-- A tree without calls, outside the bodies of functions. -/
def CallFree : Node → Prop :=
  Throughout fun node => node.kind ≠ .call

/-- Whether the value of its first child decides which children of a node are evaluated at all. -/
def isBranch : Node → Bool
  | .cond .. | .binary .and .. | .binary .or .. => true
  | _ => false

/-- A tree without branches, outside the bodies of functions. -/
def BranchFree : Node → Prop :=
  Throughout fun node => node.isBranch = false

end Node

/-! ## Within the height -/

/-- What a limit cuts short in a tree without calls is higher than the limit. -/
theorem height_of_cut {settings : Settings} {node : Node} (hcalls : node.CallFree) {budget : Nat}
    {scope : ScopeId} {m m' : Machine} {halt : Halt} (hlimit : halt.isLimit)
    (h : evaluate settings budget node scope m = .error halt m') :
    (halt = .nesting ∧ budget < node.height) ∨
      (halt ≠ .nesting ∧ settings.maxDepth - m.depth < node.height) := by
  induction hcalls generalizing budget scope m m' halt with
  | @intro node hkind _ ih =>
    have hpos := node.height_pos
    cases budget with
    | zero =>
      cases h
      exact .inl ⟨rfl, hpos⟩
    | succ budget =>
      by_cases hdepth : settings.maxDepth ≤ m.depth
      · rw [evaluate_refused settings budget node scope m hdepth] at h
        cases h
        exact .inr ⟨by simp, by omega⟩
      · obtain ⟨inner, scope', start, cause, stop, hinner, hstart, heval, rfl⟩ :=
          exists_cut_of_evaluate (Int.not_le.1 hdepth) hlimit h
        have hchild : inner ∈ node.children := hinner.resolve_right hkind
        have hlower := Node.height_lt_of_mem_children hchild
        rw [Halt.isLimit_within] at hlimit
        rw [Ne, Halt.within_eq_nesting]
        rcases ih inner hchild hlimit heval with ⟨hnesting, hbudget⟩ | ⟨hnesting, hheight⟩
        · exact .inl ⟨hnesting, by omega⟩
        · exact .inr ⟨hnesting, by omega⟩

/-! ## Beyond the height -/

namespace Plan

/-- A plan needs a child if it yields no value before it has that of the child. -/
def Needs (needed : Node) : Plan → Prop
  | done (.error _) => True
  | done (.ok _) | fetch _ | close .. | enter .. => False
  | write _ rest | define _ _ rest => rest.Needs needed
  | child node rest => node = needed ∨ ∀ value, (rest value).Needs needed

theorem needs_children {needed : Node} {nodes : List Node} (h : needed ∈ nodes)
    (rest : List Value → Plan) : (children nodes rest).Needs needed := by
  induction nodes generalizing rest with
  | nil => cases h
  | cons node nodes ih =>
    rcases List.mem_cons.1 h with rfl | h
    · exact .inl rfl
    · exact .inr fun value => ih h _

/-- Apart from branches, the plan of a node needs all of its children. -/
theorem needs_ofNode {node needed : Node} (hbranch : node.isBranch = false)
    (h : needed ∈ node.children) : (ofNode node).Needs needed := by
  cases node with
  | str | int | bool | var | function => cases h
  | print | first | second =>
    obtain rfl := List.mem_singleton.1 h
    exact .inl rfl
  | letIn name operand next l =>
    rcases List.mem_cons.1 h with rfl | h
    · exact .inl rfl
    · obtain rfl := List.mem_singleton.1 h
      exact .inr fun _ => .inl rfl
  | cond => cases hbranch
  | call callee arguments l =>
    rcases List.mem_cons.1 h with rfl | h
    · exact .inl rfl
    · refine .inr fun value => ?_
      cases value with
      | closure id parameters body captured =>
        by_cases hlength : arguments.length = parameters.length
        · rw [calling_of_length_eq hlength]
          exact needs_children h _
        · rw [calling_of_length_ne hlength]
          trivial
      | _ => trivial
  | binary op lhs rhs l =>
    rcases List.mem_cons.1 h with rfl | h
    · exact .inl rfl
    · obtain rfl := List.mem_singleton.1 h
      cases op with
      | and | or => cases hbranch
      | _ => exact .inr fun _ => .inl rfl
  | tuple lhs rhs l =>
    rcases List.mem_cons.1 h with rfl | h
    · exact .inl rfl
    · obtain rfl := List.mem_singleton.1 h
      exact .inr fun _ => .inl rfl

/-- If a plan yields a value, then so did every child that it needs. -/
theorem exists_value_of_needs {settings : Settings} {eval : Node → ScopeId → Run Value}
    (hdepth : ∀ node scope (m : Machine), (Run.machine (eval node scope m)).depth = m.depth)
    {needed : Node} {plan : Plan} (hplan : plan.Needs needed) {scope : ScopeId} {m m' : Machine}
    {x : Value} (h : plan.run settings eval scope m = .ok x m') :
    ∃ start y stop, start.depth = m.depth ∧ eval needed scope start = .ok y stop := by
  induction plan generalizing m with
  | done result =>
    cases result with
    | ok value => exact hplan.elim
    | error halt => cases h
  | write text rest ih => exact ih (m := m.wrote text) hplan h
  | define name value rest ih =>
    obtain ⟨start, y, stop, hstart, heval⟩ := ih hplan h
    exact ⟨start, y, stop, hstart.trans (Machine.depth_bound ..), heval⟩
  | fetch | close | enter => exact hplan.elim
  | child node rest ih =>
    simp only [run] at h
    cases hnode : eval node scope m with
    | error halt m'' =>
      rw [hnode] at h
      cases h
    | ok value m'' =>
      rw [hnode] at h
      rcases hplan with rfl | hrest
      · exact ⟨m, value, m'', rfl, hnode⟩
      · have hsame : m''.depth = m.depth := by simpa [hnode] using hdepth node scope m
        obtain ⟨start, y, stop, hstart, heval⟩ := ih value (hrest value) h
        exact ⟨start, y, stop, hstart.trans hsame, heval⟩

end Plan

/-- A tree without branches that has a value is no higher than the depth left over. -/
theorem height_le_of_value {settings : Settings} {node : Node} (hbranches : node.BranchFree)
    {budget : Nat} {scope : ScopeId} {m m' : Machine} {x : Value}
    (h : evaluate settings budget node scope m = .ok x m') :
    node.height ≤ settings.maxDepth - m.depth := by
  induction hbranches generalizing budget scope m m' x with
  | @intro node hbranch _ ih =>
    cases budget with
    | zero => cases h
    | succ budget =>
      by_cases hdepth : settings.maxDepth ≤ m.depth
      · rw [evaluate_refused settings budget node scope m hdepth] at h
        cases h
      · have hgranted : m.depth < settings.maxDepth := Int.not_le.1 hdepth
        rw [evaluate_granted settings budget node scope m hgranted] at h
        cases hrun : (Plan.ofNode node).run settings (evaluate settings budget) scope
            (m.started settings node.kind) with
        | error halt stop =>
          rw [hrun] at h
          cases h
        | ok value stop =>
          obtain ⟨bound, hbound⟩ : ∃ bound : Nat, settings.maxDepth - m.depth = bound + 1 :=
            ⟨(settings.maxDepth - m.depth - 1).toNat, by omega⟩
          have hlower : ∀ child ∈ node.children, child.height ≤ bound := by
            intro child hchild
            obtain ⟨start, y, stop', hstart, heval⟩ := Plan.exists_value_of_needs
              (depth_evaluate settings budget) (Plan.needs_ofNode hbranch hchild) hrun
            have hheight := ih child hchild heval
            rw [hstart, Machine.depth_started] at hheight
            omega
          have hheight := Node.height_le_succ_iff.2 hlower
          omega

/-- **The depth that a tree takes is its height.**  Take any depth to start from.  A tree without
calls that is no higher than the depth left over never exceeds the depth allowed when it is
evaluated; nor does it go beyond a host that can follow to the height of the tree.  The evaluation
of a tree without branches that is higher than the depth left over fails. -/
theorem depth_taken_is_height (settings : Settings) (host : Limits) (node : Node)
    (scope : ScopeId) (m : Machine) :
    (node.CallFree → node.height ≤ settings.maxDepth - m.depth →
      (∀ limit location m', evaluateHere settings host node scope m ≠
        .error (.error (.stackExhausted limit) location) m') ∧
      (node.height ≤ host.evaluating settings.debug →
        ∀ m', evaluateHere settings host node scope m ≠ .error .nesting m')) ∧
    (node.BranchFree → settings.maxDepth - m.depth < node.height →
      ∃ halt m', evaluateHere settings host node scope m = .error halt m') := by
  rw [evaluateHere_apply]
  refine ⟨fun hcalls hheight => ⟨fun limit location m' h => ?_, fun hhost m' h => ?_⟩,
    fun hbranches hheight => ?_⟩
  · rcases height_of_cut hcalls rfl h with ⟨hnesting, -⟩ | ⟨-, hhigher⟩
    · cases hnesting
    · omega
  · rcases height_of_cut hcalls rfl h with ⟨-, hbudget⟩ | ⟨hnesting, -⟩
    · simp only [Settings.budgetOn, Settings.budget] at hbudget
      omega
    · exact hnesting rfl
  · cases h : evaluate settings (settings.budgetOn host m.depth) node scope m with
    | error halt m' => exact ⟨halt, m', rfl⟩
    | ok x m' =>
      have hvalue := height_le_of_value hbranches h
      omega

/-- A tree of height six, started three levels below depth zero.  Within depth three it never
exceeds the depth allowed; within depth two it fails, after a line was printed.  The call is no part
of the tree. -/
theorem depth_taken_is_height_six :
    let function : Node := .function ["n"] (.call (.var "f" none) [.var "n" none] none) none
    let pair : Node := .tuple (.bool true none) (.print (.var "f" none) none) none
    let node : Node := .letIn "f" function
      (.tuple (.print (.str "a" none) none) (.first pair none) none) none
    let m : Machine := { store := ⟨#[⟨none, []⟩], 0⟩, depth := -3 }
    node.height = 6 ∧ node.CallFree ∧ node.BranchFree ∧
    (∀ limit location m', evaluateHere ⟨3, false⟩ .standard node 0 m ≠
      .error (.error (.stackExhausted limit) location) m') ∧
    ∃ halt m', evaluateHere ⟨2, false⟩ .standard node 0 m = .error halt m' ∧
      m'.output = "a\n" := by
  intro function pair node m
  have hcalls : node.CallFree := by
    repeat' first
      | exact List.forall_mem_nil _
      | refine List.forall_mem_cons.2 ⟨?_, ?_⟩
      | refine .intro nofun ?_
  have hbranches : node.BranchFree := by
    repeat' first
      | exact List.forall_mem_nil _
      | refine List.forall_mem_cons.2 ⟨?_, ?_⟩
      | refine .intro rfl ?_
  have hprints : (Run.machine (evaluateHere ⟨2, false⟩ .standard node 0 m)).output = "a\n" := by
    decide +kernel
  have hwithin := (depth_taken_is_height ⟨3, false⟩ .standard node 0 m).1 hcalls (by decide)
  obtain ⟨halt, m', herror⟩ :=
    (depth_taken_is_height ⟨2, false⟩ .standard node 0 m).2 hbranches (by decide)
  rw [herror] at hprints
  exact ⟨rfl, hcalls, hbranches, hwithin.1, halt, m', herror, hprints⟩

end Rinha
