import Rinha.Proofs.Failures
import Rinha.Proofs.Observation

/-!
# Where errors are located

An error gets the location of the innermost node that has one, among the nodes whose evaluation is
in progress when the error arises.  Evaluation does not keep these nodes: each of them adds its
location as the error passes through it, unless the error has one by then.  A watched run does keep
them.

## Main definitions

* `watcher`, `watchProgram` -- a run of a program with the nodes in progress.
* `Node.InProgressFor` -- a node is evaluated on behalf of another one.
* `Plan.Unplaced` -- a plan does not locate its own failures.
* `Placed` -- an error has the location of the innermost node in progress that has one.
* `watch_placed` -- all errors of evaluation are placed.
-/

namespace Rinha

/-! ## Watched runs -/

/-- Tells which nodes were in progress when a result came about, innermost first, as a function of
those around the node, or around the plan: its own node is the first of these.  A node that is
refused is in progress when it is. -/
def watcher : Observer (List Node → List Node) where
  spent site around := site.node :: around
  refused site _ around := site.node :: around
  granted site _ inner _ around := inner (site.node :: around)
  still _ _ nodes := nodes
  acted _ _ after := after
  closed _ _ _ _ nodes := nodes
  followed _ after := after
  entered _ _ _ body := body

/-- A watched computation inside given nodes. -/
def Run.watched (nodes : List Node)
    (outcome : EStateM.Result Halt Machine Value × (List Node → List Node)) :
    EStateM.Result Halt Machine Value × List Node :=
  (outcome.1, outcome.2 nodes)

/-- Evaluates a tree from depth zero in a new scope that binds nothing, and tells which nodes were
in progress when the result came about. -/
def watchProgram (settings : Settings) (host : Limits) (root : Node) (m : Machine) :
    EStateM.Result Halt Machine Value × List Node :=
  Run.watched []
    (observe watcher settings (settings.budgetOn host 0) root m.store.scopes.size m.fresh)

/-- A run of a program concludes a watched one. -/
theorem interpret_eq_conclude_watchProgram (settings : Settings) (host : Limits) (root : Node)
    (m : Machine) :
    interpret settings host root m =
      Run.conclude settings m.depth (watchProgram settings host root m).1 := by
  rw [interpret_apply, watchProgram, Run.watched, observe_fst]

/-! ## Failures of plans -/

/-- A node is evaluated on behalf of another one: it is a child of that, or that is a call, which
evaluates the body of whatever closure it calls. -/
def Node.InProgressFor (inner outer : Node) : Prop :=
  inner ∈ outer.children ∨ outer.kind = .call

/-- The location of an error, if it has one. -/
def Halt.location? : Halt → Option Location
  | .error _ location => location
  | _ => none

/-- What a node fails with by itself has no location yet. -/
theorem Halt.OfNode.location?_eq_none {halt : Halt} (h : halt.OfNode) : halt.location? = none := by
  cases h with
  | operands h => cases h <;> rfl
  | _ => rfl

namespace Plan

/-- A plan of a node does not locate its own failures, and enters a closure only if the node is a
call. -/
def Unplaced (node : Node) : Plan → Prop
  | done (.ok _) | fetch _ | close .. => True
  | done (.error halt) => halt.location? = none
  | write _ rest | define _ _ rest => rest.Unplaced node
  | child _ rest => ∀ value, (rest value).Unplaced node
  | enter .. => node.kind = .call

theorem Confined.unplaced {node : Node} {plan : Plan} (h : plan.Confined node) :
    plan.Unplaced node := by
  induction plan with
  | done result =>
    cases result with
    | ok value => trivial
    | error halt => exact Halt.OfNode.location?_eq_none h
  | write text rest ih => exact ih h
  | define name value rest ih => exact ih h
  | fetch name => trivial
  | close parameters body => trivial
  | child node' rest ih => exact fun value => ih value (h value)
  | enter id parameters body captured values => exact h

/-- The plan of a node leaves it to the node to locate its failures. -/
theorem unplaced_ofNode (node : Node) : (ofNode node).Unplaced node :=
  (confined_ofNode node).unplaced

end Plan

/-! ## Errors have the location of the innermost node that has one -/

/-- If a watched computation stops with an error, then the nodes in progress are the given ones and
others inside these.  Every one of them is evaluated on behalf of the next one.  Of those inside,
and of `own`, the innermost that has a location gives it to the error. -/
def Placed (own around : List Node) (outcome : EStateM.Result Halt Machine Value × List Node) :
    Prop :=
  ∀ e location m', outcome.1 = .error (.error e location) m' → ∃ inner,
    outcome.2 = inner ++ (own ++ around) ∧ location = (inner ++ own).findSome? Node.location ∧
    outcome.2.IsChain Node.InProgressFor

namespace Placed

variable {own around nodes : List Node} {node : Node} {m' : Machine}

theorem ok {value : Value} : Placed own around (.ok value m', nodes) :=
  fun _ _ _ h => nomatch h

/-- A failure of the innermost node in progress, which the node has not located yet. -/
theorem unplaced {halt : Halt} (hhalt : halt.location? = none)
    (hchain : around.IsChain Node.InProgressFor) : Placed [] around (.error halt m', around) := by
  rintro e location m'' ⟨⟩
  exact ⟨[], rfl, hhalt, hchain⟩

/-- What a node in progress has located is placed as far as the nodes around it are concerned. -/
theorem outward {outcome : EStateM.Result Halt Machine Value × List Node}
    (h : Placed [node] around outcome) : Placed [] around outcome := by
  intro e location m' herror
  obtain ⟨inner, hnodes, hlocation, hchain⟩ := h e location m' herror
  exact ⟨inner ++ [node], by simp [hnodes], by simpa using hlocation, hchain⟩

/-- A node gives its location to an error that passes through it and has none. -/
theorem leave {result : EStateM.Result Halt Machine Value}
    (h : Placed [] (node :: around) (result, nodes)) :
    Placed [node] around (Run.leave node.location result, nodes) := by
  intro e location m' herror
  cases result with
  | ok value m'' => cases herror
  | error halt m'' =>
    cases halt with
    | error e' before =>
      obtain ⟨inner, hnodes, hbefore, hchain⟩ := h e' before m'' rfl
      refine ⟨inner, hnodes, ?_, hchain⟩
      rw [List.append_nil] at hbefore
      rw [List.findSome?_append, ← hbefore]
      cases before with
      | none =>
        cases herror
        simp
      | some l =>
        cases herror
        rfl
    | digits => cases herror
    | unworded => cases herror
    | nesting => cases herror
    | fault => cases herror

end Placed

/-- Carrying out the plan of a node places all errors, if evaluating nodes does. -/
theorem Plan.watch_placed {settings : Settings} {eval : Observed (List Node → List Node)}
    (heval : ∀ node around scope m, (node :: around).IsChain Node.InProgressFor →
      Placed [node] around (Run.watched around (eval node scope m)))
    {site : Site} {plan : Plan} (hfits : plan.Fits site.node) (hplan : plan.Unplaced site.node)
    {around : List Node} (hchain : (site.node :: around).IsChain Node.InProgressFor) (m : Machine) :
    Placed [] (site.node :: around)
      (Run.watched (site.node :: around) (plan.observe watcher settings eval site m)) := by
  induction plan generalizing m with
  | done result =>
    cases result with
    | ok value => exact .ok
    | error halt => exact .unplaced hplan hchain
  | write text rest ih => exact ih hfits hplan (m.wrote text)
  | define name value rest ih => exact ih hfits.2 hplan (m.bound settings site.scope name value)
  | fetch name =>
    simp only [observe]
    cases m.store.lookup site.scope name with
    | some value => exact .ok
    | none => exact .unplaced rfl hchain
  | close parameters body => exact .ok
  | child node rest ih =>
    have hnode : Placed [node] (site.node :: around)
        (Run.watched (site.node :: around) (eval node site.scope m)) :=
      heval node (site.node :: around) site.scope m (hchain.cons_cons (.inl hfits.1))
    simp only [observe]
    cases hresult : eval node site.scope m with
    | mk result nodes =>
      rw [hresult] at hnode
      cases result with
      | ok value m' => exact ih value (hfits.2 value) (hplan value) m'
      | error halt m' => exact hnode.outward
  | enter id parameters body captured values =>
    exact (heval body (site.node :: around) _ _ (hchain.cons_cons (.inr hplan))).outward

/-- Evaluation places all errors. -/
theorem watch_placed (settings : Settings) (budget : Nat) (node : Node) (around : List Node)
    (scope : ScopeId) (m : Machine) (hchain : (node :: around).IsChain Node.InProgressFor) :
    Placed [node] around (Run.watched around (observe watcher settings budget node scope m)) := by
  refine observe_induction (P := fun node _ _ outcome =>
    ∀ around, (node :: around).IsChain Node.InProgressFor →
      Placed [node] around (Run.watched around outcome))
    (fun _ _ _ _ _ _ _ _ h => nomatch h) (fun node _ m _ around hchain => ?_)
    (fun budget ih node scope m _ around hchain => ?_) budget node scope m around hchain
  · rcases Halt.refusal_cases settings.maxDepth with ⟨limit, hrefusal⟩ | hrefusal
    · rw [hrefusal]
      rintro e location m' ⟨⟩
      exact ⟨[], rfl, by simp, hchain⟩
    · rw [hrefusal]
      exact fun _ _ _ h => nomatch h
  · exact (Plan.watch_placed (fun node around scope m => ih node scope m around)
      (Plan.fits_ofNode node) (Plan.unplaced_ofNode node) hchain _).leave

/-- **Errors have the innermost location.**  If a run of a program stops with an error, and not
because the host could not follow it, then the location of the error is that of the innermost node
that has one, among the nodes in progress when the error arose; it is unknown exactly if none of
them has one.  Each of these nodes is a child of the next one, unless the next one is a call that
entered a closure, and the last one is the program. -/
theorem interpret_error_location (settings : Settings) (host : Limits) (root : Node) (m : Machine)
    (e : Error) (location : Option Location) (m' : Machine)
    (h : interpret settings host root m = .error (.error e location) m')
    (hhost : ∀ m'', (watchProgram settings host root m).1 ≠ .error .nesting m'') :
    interpret settings host root m =
      Run.conclude settings m.depth (watchProgram settings host root m).1 ∧
    location = (watchProgram settings host root m).2.findSome? Node.location ∧
    (location = none ↔
      ∀ node ∈ (watchProgram settings host root m).2, node.location = none) ∧
    (watchProgram settings host root m).2.IsChain Node.InProgressFor ∧
    (watchProgram settings host root m).2.getLast? = some root := by
  have hplain := interpret_eq_conclude_watchProgram settings host root m
  have hplaced : Placed [root] [] (watchProgram settings host root m) :=
    watch_placed settings _ root [] _ m.fresh (.singleton root)
  obtain ⟨m'', herror⟩ : ∃ m'', (watchProgram settings host root m).1 =
      .error (.error e location) m'' := by
    rw [h] at hplain
    cases hresult : (watchProgram settings host root m).1 with
    | ok value m'' =>
      rw [hresult] at hplain
      cases hplain
    | error halt m'' =>
      rw [hresult] at hplain
      cases halt with
      | nesting => exact absurd hresult (hhost m'')
      | error e' location' =>
        cases hplain
        exact ⟨m'', rfl⟩
      | digits => cases hplain
      | unworded => cases hplain
      | fault => cases hplain
  obtain ⟨inner, hnodes, hlocation, hchain⟩ := hplaced e location m'' herror
  rw [List.append_nil] at hnodes
  rw [← hnodes] at hlocation
  refine ⟨hplain, hlocation, ?_, hchain, by simp [hnodes]⟩
  rw [hlocation, List.findSome?_eq_none_iff]

/-- The body of a closure has no location, and neither has the let node around its call, so that the
error has the location of the call. -/
theorem interpret_error_location_call :
    let place : Location := ⟨.int 3, .int 9, "f"⟩
    let body : Node := .first (.int 1 none) none
    let call : Node := .call (.var "f" none) [] (some place)
    let root : Node := .letIn "f" (.function [] body none) call none
    (watchProgram {} .standard root {}).2 = [body, call, root] ∧
    some place = [body, call, root].findSome? Node.location := by
  intro place body call root
  obtain ⟨m', hwatch⟩ : ∃ m', watchProgram {} .standard root {} =
      (.error (.error (.notATuple "Int" "First") (some place)) m', [body, call, root]) := ⟨_, rfl⟩
  have herror : interpret {} .standard root {} =
      .error (.error (.notATuple "Int" "First") (some place)) { m' with depth := 0 } := by
    rw [interpret_eq_conclude_watchProgram, hwatch]
    rfl
  have hlocation := (interpret_error_location {} .standard root {} _ _ _ herror
    (by simp [hwatch])).2.1
  rw [hwatch] at hlocation
  exact ⟨by rw [hwatch], hlocation⟩

end Rinha
