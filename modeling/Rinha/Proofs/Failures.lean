import Rinha.Proofs.Depth
import Rinha.Proofs.DepthLimit
import Rinha.Proofs.Occurrence
import Rinha.Proofs.Values

/-!
# Failures of nodes

An evaluation fails in the node itself, or in a node that is evaluated on its behalf.  What nodes
fail with by themselves are errors that have no location yet, or failures that are no errors of the
language; no limit is among them.  So an evaluation that a limit cut short after it was granted its
depth was cut short in another node, one level deeper.

## Main definitions

* `Halt.OfNode` -- the failures of nodes by themselves.
* `Plan.Confined` -- a plan that has no other failures of its own.
* `Plan.confined_ofNode` -- plans of nodes are such.
* `Plan.exists_cut` -- whatever cuts a plan short cuts the evaluation of a node short.
* `exists_cut_of_evaluate` -- the same for evaluation, one level deeper.
* `cut_of_evaluate`, `evaluate_ne_nesting` -- what cuts evaluation short, and that a budget which
  covers the depth left over does not.
-/

namespace Rinha

/-- What a node can fail with by itself. -/
inductive Halt.OfNode : Halt → Prop
  | unbound {name : String} : OfNode (.unlocated (.unboundVariable name))
  | notCallable {tag : String} : OfNode (.unlocated (.notCallable tag))
  | wrongArity {expected got : Amount} : OfNode (.unlocated (.wrongArity expected got))
  | notATuple {tag projection : String} : OfNode (.unlocated (.notATuple tag projection))
  | operands {halt : Halt} : halt.OfOperands → OfNode halt

/-- No limit is a failure of a node. -/
theorem Halt.OfNode.not_isLimit {halt : Halt} (h : halt.OfNode) : ¬ halt.isLimit := by
  cases h with
  | operands h => cases h <;> simp [isLimit, unlocated]
  | _ => simp [isLimit, unlocated]

/-- What nesting beyond the host is inside a node, it is around it. -/
theorem Halt.within_eq_nesting {location : Option Location} {halt : Halt} :
    halt.within location = .nesting ↔ halt = .nesting := by
  rcases halt with ⟨e, _ | l⟩ | _ | _ | _ | _ <;> simp

namespace Plan

/-- A plan that is confined to a node fails by itself only as nodes do, and enters a closure only if
the node is a call. -/
def Confined (node : Node) : Plan → Prop
  | done (.ok _) | fetch _ | close .. => True
  | done (.error halt) => halt.OfNode
  | write _ rest | define _ _ rest => rest.Confined node
  | child _ rest => ∀ value, (rest value).Confined node
  | enter .. => node.kind = .call

theorem confined_children {node : Node} {nodes : List Node} {rest : List Value → Plan}
    (hrest : ∀ values, (rest values).Confined node) : (children nodes rest).Confined node := by
  induction nodes generalizing rest with
  | nil => exact hrest []
  | cons first nodes ih => exact fun value => ih fun values => hrest (value :: values)

theorem confined_last {node : Node} (node' : Node) : (last node').Confined node :=
  fun _ => trivial

theorem confined_component {node : Node} (name : String) (pick : Value → Value → Value)
    (value : Value) : (component name pick value).Confined node := by
  cases value with
  | tuple left right => trivial
  | _ => exact .notATuple

/-- The plan of a node is confined to it. -/
theorem confined_ofNode (node : Node) : (ofNode node).Confined node := by
  cases node with
  | str value l => trivial
  | int value l => trivial
  | bool value l => trivial
  | var name l => trivial
  | function parameters body l => trivial
  | print operand l =>
    intro value
    cases h : value.printed with
    | ok text => simp [h, Confined]
    | error refusal => simpa [h, Confined] using .operands .digits
  | letIn name operand next l => exact fun _ => confined_last next
  | cond condition then_ otherwise l =>
    intro value
    cases h : value.isTruthy <;> simp [h, confined_last]
  | call callee arguments l =>
    intro value
    cases value with
    | closure id parameters body captured =>
      by_cases h : arguments.length = parameters.length
      · rw [calling_of_length_eq h]
        exact confined_children fun _ => rfl
      · rw [calling_of_length_ne h]
        exact .wrongArity
    | _ => exact .notCallable
  | binary op lhs rhs l =>
    intro left
    have happly : ∀ right, (done (op.apply left right)).Confined (.binary op lhs rhs l) := by
      intro right
      cases h : op.apply left right with
      | ok value => trivial
      | error halt => exact .operands (Operator.ofOperands_of_apply h)
    cases op with
    | and => cases h : left.isTruthy <;> simp [h, Confined, confined_last]
    | or => cases h : left.isTruthy <;> simp [h, Confined, confined_last]
    | _ => exact happly
  | tuple lhs rhs l => exact fun _ _ => trivial
  | first operand l => exact confined_component "First" fun left _ => left
  | second operand l => exact confined_component "Second" fun _ right => right

/-- If a limit cuts a plan of a node short, then it does so in the evaluation of a node at the same
depth: a child of the node, or the body of a closure, if the node is a call. -/
theorem exists_cut {settings : Settings} {eval : Node → ScopeId → Run Value}
    (hdepth : ∀ node scope (m : Machine), (Run.machine (eval node scope m)).depth = m.depth)
    {node : Node} {plan : Plan} (hfits : plan.Fits node) (hplan : plan.Confined node)
    {scope : ScopeId} {m m' : Machine} {halt : Halt} (hlimit : halt.isLimit)
    (h : plan.run settings eval scope m = .error halt m') :
    ∃ inner scope' start, (inner ∈ node.children ∨ node.kind = .call) ∧
      start.depth = m.depth ∧ eval inner scope' start = .error halt m' := by
  induction plan generalizing m with
  | done result =>
    cases result with
    | ok value => cases h
    | error cause =>
      cases h
      exact absurd hlimit (Halt.OfNode.not_isLimit hplan)
  | write text rest ih => exact ih (m := m.wrote text) hfits hplan h
  | define name value rest ih =>
    obtain ⟨inner, scope', start, hinner, hstart, heval⟩ := ih hfits.2 hplan h
    exact ⟨inner, scope', start, hinner, hstart.trans (Machine.depth_bound ..), heval⟩
  | fetch name =>
    simp only [run] at h
    cases hlookup : m.store.lookup scope name with
    | some value =>
      rw [hlookup] at h
      cases h
    | none =>
      rw [hlookup] at h
      cases h
      exact absurd hlimit Halt.OfNode.unbound.not_isLimit
  | close parameters body => cases h
  | child first rest ih =>
    simp only [run] at h
    cases hfirst : eval first scope m with
    | error cause m'' =>
      rw [hfirst] at h
      cases h
      exact ⟨first, scope, m, .inl hfits.1, rfl, hfirst⟩
    | ok value m'' =>
      rw [hfirst] at h
      have hsame : m''.depth = m.depth := by simpa [hfirst] using hdepth first scope m
      obtain ⟨inner, scope', start, hinner, hstart, heval⟩ :=
        ih value (hfits.2 value) (hplan value) h
      exact ⟨inner, scope', start, hinner, hstart.trans hsame, heval⟩
  | enter id parameters body captured values =>
    exact ⟨body, _, _, .inr hplan, Machine.depth_entered .., h⟩

end Plan

/-- If a limit cuts the evaluation of a node short that was granted its depth, then it does so one
level deeper, in the evaluation of a child, or of the body of a closure, if the node is a call. -/
theorem exists_cut_of_evaluate {settings : Settings} {budget : Nat} {node : Node} {scope : ScopeId}
    {m m' : Machine} {halt : Halt} (hgranted : m.depth < settings.maxDepth) (hlimit : halt.isLimit)
    (h : evaluate settings (budget + 1) node scope m = .error halt m') :
    ∃ inner scope' start cause stop, (inner ∈ node.children ∨ node.kind = .call) ∧
      start.depth = m.depth + 1 ∧ evaluate settings budget inner scope' start = .error cause stop ∧
      halt = cause.within node.location := by
  rw [evaluate_granted settings budget node scope m hgranted] at h
  cases hrun : (Plan.ofNode node).run settings (evaluate settings budget) scope
      (m.started settings node.kind) with
  | ok value stop =>
    rw [hrun] at h
    cases h
  | error cause stop =>
    rw [hrun] at h
    cases h
    obtain ⟨inner, scope', start, hinner, hstart, heval⟩ :=
      Plan.exists_cut (depth_evaluate settings budget) (Plan.fits_ofNode node)
        (Plan.confined_ofNode node) (by simpa using hlimit) hrun
    exact ⟨inner, scope', start, cause, stop, hinner, hstart.trans (Machine.depth_started ..),
      heval, rfl⟩

/-- What cuts an evaluation short.  Either the budget was spent, which is then no more than the
depth left over, or a node was refused, for which the budget was great enough. -/
theorem cut_of_evaluate {settings : Settings} {budget : Nat} {node : Node} {scope : ScopeId}
    {m m' : Machine} {halt : Halt} (hlimit : halt.isLimit)
    (h : evaluate settings budget node scope m = .error halt m') :
    (halt = .nesting ∧ (budget : Int) ≤ max 0 (settings.maxDepth - m.depth)) ∨
      (settings.maxDepth - m.depth < budget ∧
        ∃ location, halt = .refusal settings.maxDepth location) := by
  induction budget generalizing node scope m m' halt with
  | zero =>
    cases h
    exact .inl ⟨rfl, Int.le_max_left ..⟩
  | succ budget ih =>
    by_cases hdepth : settings.maxDepth ≤ m.depth
    · rw [evaluate_refused settings budget node scope m hdepth] at h
      cases h
      exact .inr ⟨by omega, _, rfl⟩
    · obtain ⟨inner, scope', start, cause, stop, -, hstart, hinner, rfl⟩ :=
        exists_cut_of_evaluate (Int.not_le.1 hdepth) hlimit h
      rcases ih (by simpa using hlimit) hinner with ⟨rfl, hspent⟩ | ⟨hleft, location, rfl⟩
      · exact .inl ⟨rfl, by omega⟩
      · refine .inr ⟨by omega, ?_⟩
        cases location with
        | none => exact ⟨node.location, Halt.within_refusal ..⟩
        | some l => exact ⟨some l, Halt.within_refusal_some ..⟩

/-- A budget that covers the depth left over is not used up. -/
theorem evaluate_ne_nesting {settings : Settings} {budget : Nat} {m : Machine}
    (h : settings.budget m.depth ≤ budget) (node : Node) (scope : ScopeId) (m' : Machine) :
    evaluate settings budget node scope m ≠ .error .nesting m' := by
  intro hresult
  rw [Settings.budget] at h
  rcases cut_of_evaluate rfl hresult with ⟨-, hspent⟩ | ⟨-, location, hrefusal⟩
  · omega
  · exact Halt.refusal_ne_nesting settings.maxDepth location hrefusal.symm

end Rinha
