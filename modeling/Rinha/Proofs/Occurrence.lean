import Rinha.Proofs.Plan

/-!
# Where nodes stand

A node is evaluated in the scope of the node around it, unless it is the body of a function.  So the
names that an evaluation binds in its own scope are those of the let nodes below, as far as they do
not stand in the body of a function.

## Main definitions

* `Node.children` -- the nodes directly below a node, apart from the body of a function.
* `Node.letNames` -- the names that let nodes bind at or below a node, outside functions.
* `Plan.Fits` -- a plan keeps to the children of a node and to the names that it binds.
-/

namespace Rinha

namespace Node

/-- The nodes directly below a node, apart from the body of a function. -/
def children : Node → List Node
  | .str .. | .int .. | .bool .. | .var .. | .function .. => []
  | .print operand _ | .first operand _ | .second operand _ => [operand]
  | .letIn _ operand next _ => [operand, next]
  | .cond condition then_ otherwise _ => [condition, then_, otherwise]
  | .call callee arguments _ => callee :: arguments
  | .binary _ lhs rhs _ | .tuple lhs rhs _ => [lhs, rhs]

mutual

/-- The names that let nodes bind at or below a node, outside the bodies of functions. -/
def letNames : Node → List String
  | .str .. | .int .. | .bool .. | .var .. | .function .. => []
  | .print operand _ | .first operand _ | .second operand _ => operand.letNames
  | .letIn name operand next _ => name :: operand.letNames ++ next.letNames
  | .cond condition then_ otherwise _ =>
    condition.letNames ++ then_.letNames ++ otherwise.letNames
  | .call callee arguments _ => callee.letNames ++ allLetNames arguments
  | .binary _ lhs rhs _ | .tuple lhs rhs _ => lhs.letNames ++ rhs.letNames

/-- The names that let nodes bind at or below several nodes, outside the bodies of functions. -/
def allLetNames : List Node → List String
  | [] => []
  | node :: nodes => node.letNames ++ allLetNames nodes

end

theorem letNames_subset_allLetNames {nodes : List Node} {node : Node} (h : node ∈ nodes) :
    node.letNames ⊆ allLetNames nodes := by
  induction nodes with
  | nil => simp at h
  | cons first nodes ih =>
    rw [allLetNames]
    rcases List.mem_cons.1 h with rfl | h
    · exact List.subset_append_left ..
    · exact List.subset_append_of_subset_right _ (ih h)

/-- What is bound below a child is bound below its node. -/
theorem letNames_subset_of_mem_children {node child : Node} (h : child ∈ node.children) :
    child.letNames ⊆ node.letNames := by
  intro name hname
  cases node with
  | call callee arguments l =>
    simp only [children, List.mem_cons] at h
    simp only [letNames, List.mem_append]
    rcases h with rfl | h
    · exact .inl hname
    · exact .inr (letNames_subset_allLetNames h hname)
  | str | int | bool | var | function => simp [children] at h
  | print | letIn | cond | binary | tuple | first | second =>
    simp only [children, List.mem_cons, List.not_mem_nil, or_false] at h
    simp only [letNames, List.mem_append, List.mem_cons]
    grind

end Node

namespace Plan

/-- A plan keeps to a node: it evaluates only children of the node, binds only names that the node
binds, and makes a closure only of the node itself. -/
def Fits (node : Node) : Plan → Prop
  | done _ | fetch _ | enter .. => True
  | write _ rest => rest.Fits node
  | define name _ rest => name ∈ node.letNames ∧ rest.Fits node
  | close parameters body => ∃ location, node = .function parameters body location
  | child node' rest => node' ∈ node.children ∧ ∀ value, (rest value).Fits node

theorem fits_children {node : Node} {nodes : List Node} {rest : List Value → Plan}
    (hnodes : nodes ⊆ node.children) (hrest : ∀ values, (rest values).Fits node) :
    (children nodes rest).Fits node := by
  induction nodes generalizing rest with
  | nil => exact hrest []
  | cons first nodes ih =>
    obtain ⟨hfirst, hnodes⟩ := List.cons_subset.1 hnodes
    exact ⟨hfirst, fun value => ih hnodes fun values => hrest (value :: values)⟩

theorem fits_last {node node' : Node} (h : node' ∈ node.children) : (last node').Fits node :=
  ⟨h, fun _ => trivial⟩

/-- The plan of a node keeps to the node. -/
theorem fits_ofNode (node : Node) : (ofNode node).Fits node := by
  cases node with
  | str value l => trivial
  | int value l => trivial
  | bool value l => trivial
  | var name l => trivial
  | function parameters body l => exact ⟨l, rfl⟩
  | print operand l =>
    refine ⟨by simp [Node.children], fun value => ?_⟩
    cases h : value.printed <;> simp [h, Fits]
  | letIn name operand next l =>
    refine ⟨by simp [Node.children], fun value => ⟨by simp [Node.letNames], ?_⟩⟩
    exact fits_last (by simp [Node.children])
  | cond condition then_ otherwise l =>
    refine ⟨by simp [Node.children], fun value => ?_⟩
    cases h : value.isTruthy
    · simpa [h] using fits_last (by simp [Node.children])
    · simpa [h] using fits_last (by simp [Node.children])
  | call callee arguments l =>
    refine ⟨by simp [Node.children], fun value => ?_⟩
    cases value with
    | closure id parameters body captured =>
      by_cases h : arguments.length = parameters.length
      · rw [calling_of_length_eq h]
        exact fits_children (List.subset_cons_self ..) fun _ => trivial
      · rw [calling_of_length_ne h]
        trivial
    | _ => trivial
  | binary op lhs rhs l =>
    have hrhs : rhs ∈ (Node.binary op lhs rhs l).children := by simp [Node.children]
    refine ⟨by simp [Node.children], fun left => ?_⟩
    cases op with
    | and => cases h : left.isTruthy <;> simp [h, Fits, fits_last hrhs]
    | or => cases h : left.isTruthy <;> simp [h, Fits, fits_last hrhs]
    | _ => exact ⟨hrhs, fun _ => trivial⟩
  | tuple lhs rhs l =>
    exact ⟨by simp [Node.children], fun _ => ⟨by simp [Node.children], fun _ => trivial⟩⟩
  | first operand l =>
    refine ⟨by simp [Node.children], fun value => ?_⟩
    cases value <;> trivial
  | second operand l =>
    refine ⟨by simp [Node.children], fun value => ?_⟩
    cases value <;> trivial

end Plan

end Rinha
