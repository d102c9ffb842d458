import Mathlib.Data.List.Chain
import Rinha.Proofs.Observation

/-!
# The depth of a run

A run counts the nodes that it is in the middle of evaluating.  A followed run keeps its course: the
machines that it goes through, from the one that it starts with to the one that it leaves.  Along
the course the depth goes up and down one at a time, never below where it started, nor above the
depth allowed unless it started there; and whichever way the run ends, it is back where it started.

## Main definitions

* `follower`, `follow`, `followHere` -- evaluation with its course.
* `Run.Balanced` -- how the depth goes along a course.
* `follow_balanced`, `depth_evaluate` -- evaluation gives back the depth that it takes.
-/

namespace Rinha

/-! ## Followed runs -/

/-- Tells which machines a run goes through, first to last. -/
def follower : Observer (List Machine) where
  spent site := [site.start]
  refused site m := [site.start, m]
  granted site m inner stop := site.start :: m :: (inner ++ [stop.ended])
  still _ m := [m]
  acted _ m after := m :: after
  closed site m parameters body := [m, m.closed parameters body site.scope]
  followed child after := child ++ after
  entered _ m _ body := m :: body

/-- Evaluates a node with a course, within a budget of nested evaluations. -/
def follow (settings : Settings) : Nat → Observed (List Machine) :=
  observe follower settings

/-- Evaluates a node with a course, from the depth that the machine is at. -/
def followHere (settings : Settings) (host : Limits) : Observed (List Machine) :=
  fun node scope m => follow settings (settings.budgetOn host m.depth) node scope m

theorem followHere_fst (settings : Settings) (host : Limits) (node : Node) (scope : ScopeId)
    (m : Machine) :
    (followHere settings host node scope m).1 = evaluateHere settings host node scope m := by
  rw [followHere, follow, observe_fst, evaluateHere_apply]

/-! ## Depth along a course -/

/-- How the depth goes along the course of a computation.  The course leads from the machine that
the computation starts with to the one that it leaves, and the depth changes by one at most from
each machine to the next.  It is never less than at the start, and never more than at the start and
the limit.  In the end it is what it was. -/
structure Run.Balanced (limit : Int) (m : Machine)
    (outcome : EStateM.Result Halt Machine Value × List Machine) : Prop where
  restored : (Run.machine outcome.1).depth = m.depth
  starts : outcome.2.head? = some m
  ends : outcome.2.getLast? = some (Run.machine outcome.1)
  steps : outcome.2.IsChain fun before after => (after.depth - before.depth).natAbs ≤ 1
  within : ∀ m' ∈ outcome.2, m.depth ≤ m'.depth ∧ m'.depth ≤ max m.depth limit

namespace Run.Balanced

variable {limit : Int} {m m' : Machine} {result : EStateM.Result Halt Machine Value}
  {outcome : EStateM.Result Halt Machine Value × List Machine} {course : List Machine}

/-- A computation that leaves the machine as it is. -/
theorem still (h : Run.machine result = m) : Run.Balanced limit m (result, [m]) where
  restored := by rw [h]
  starts := rfl
  ends := by rw [h]; rfl
  steps := .singleton m
  within m' hm' := by
    obtain rfl := List.mem_singleton.1 hm'
    exact ⟨Int.le_refl _, Int.le_max_left ..⟩

/-- What comes after an action that has no bearing on the depth. -/
theorem cons (hdepth : m'.depth = m.depth) (h : Run.Balanced limit m' outcome) :
    Run.Balanced limit m (outcome.1, m :: outcome.2) where
  restored := h.restored.trans hdepth
  starts := rfl
  ends := by rw [List.getLast?_cons, h.ends]; rfl
  steps := by
    refine List.isChain_cons.2 ⟨?_, h.steps⟩
    rw [h.starts]
    rintro _ ⟨⟩
    omega
  within := by
    have hrest := h.within
    rw [hdepth] at hrest
    exact List.forall_mem_cons.2 ⟨⟨Int.le_refl _, Int.le_max_left ..⟩, hrest⟩

/-- What comes after the value of a child. -/
theorem append {value : Value} (hchild : Run.Balanced limit m (.ok value m', course))
    (h : Run.Balanced limit m' outcome) :
    Run.Balanced limit m (outcome.1, course ++ outcome.2) where
  restored := h.restored.trans hchild.restored
  starts := by rw [List.head?_append, hchild.starts]; rfl
  ends := by rw [List.getLast?_append, h.ends]; rfl
  steps := by
    refine hchild.steps.append h.steps ?_
    rw [hchild.ends, h.starts]
    rintro _ ⟨⟩ _ ⟨⟩
    simp
  within := by
    have hrest := h.within
    have hdepth : m'.depth = m.depth := hchild.restored
    rw [hdepth] at hrest
    exact List.forall_mem_append.2 ⟨hchild.within, hrest⟩

/-- A node takes one level and gives it back. -/
theorem leave {noted started : Machine} (hgranted : m.depth < limit)
    (hnoted : noted.depth = m.depth) (hstarted : started.depth = m.depth + 1)
    (h : Run.Balanced limit started outcome) (location : Option Location) :
    Run.Balanced limit m (Run.leave location outcome.1,
      m :: noted :: (outcome.2 ++ [(Run.machine outcome.1).ended])) := by
  have hrestored : (Run.machine outcome.1).depth = started.depth := h.restored
  have hended : (Run.machine outcome.1).ended.depth = m.depth := by
    rw [Machine.depth_ended]
    omega
  refine ⟨by rw [machine_leave, hended], rfl, ?_, ?_, ?_⟩
  · rw [machine_leave, List.getLast?_cons_cons, List.getLast?_cons, List.getLast?_append]
    rfl
  · refine .cons_cons (by simp [hnoted]) (List.isChain_cons.2 ⟨?_, ?_⟩)
    · rw [List.head?_append, h.starts]
      rintro _ ⟨⟩
      omega
    · refine h.steps.append (.singleton _) ?_
      rw [h.ends]
      rintro _ ⟨⟩ _ ⟨⟩
      omega
  · simp only [List.forall_mem_cons, List.forall_mem_append, List.not_mem_nil, false_implies,
      implies_true, and_true]
    refine ⟨by omega, by omega, fun m' hm' => ?_, by omega⟩
    have hbounds := h.within m' hm'
    omega

end Run.Balanced

/-- Carrying out a plan is balanced if evaluating nodes is. -/
theorem Plan.follow_balanced {settings : Settings} {eval : Observed (List Machine)} {limit : Int}
    (heval : ∀ node scope m, Run.Balanced limit m (eval node scope m))
    (plan : Plan) (site : Site) (m : Machine) :
    Run.Balanced limit m (plan.observe follower settings eval site m) := by
  induction plan generalizing m with
  | done result => cases result <;> exact .still rfl
  | write text rest ih => exact .cons (Machine.depth_wrote m text) (ih (m.wrote text))
  | define name value rest ih => exact .cons (Machine.depth_bound ..) (ih _)
  | fetch name =>
    simp only [observe]
    cases m.store.lookup site.scope name <;> exact .still rfl
  | close parameters body =>
    exact .cons (Machine.depth_closed m site.scope parameters body)
      (.still (Run.machine_ok _ (m.closed parameters body site.scope)))
  | child node rest ih =>
    have hchild := heval node site.scope m
    simp only [observe]
    cases h : eval node site.scope m with
    | mk result course =>
      rw [h] at hchild
      cases result with
      | ok value m' => exact .append hchild (ih value m')
      | error halt m' => exact hchild
  | enter id parameters body captured values => exact .cons (Machine.depth_entered ..) (heval ..)

/-- Evaluation is balanced by the depth allowed. -/
theorem follow_balanced (settings : Settings) (budget : Nat) (node : Node) (scope : ScopeId)
    (m : Machine) :
    Run.Balanced settings.maxDepth m (follow settings budget node scope m) := by
  refine observe_induction (P := fun _ _ m outcome => Run.Balanced settings.maxDepth m outcome)
    (fun _ _ m => ?_) (fun _ _ m _ => ?_) (fun budget ih node scope m hgranted => ?_)
    budget node scope m
  · exact .still rfl
  · exact .cons (Machine.depth_noted ..) (.still rfl)
  · exact .leave hgranted (Machine.depth_noted ..) (Machine.depth_started ..)
      (Plan.follow_balanced ih (.ofNode node) ⟨node, scope, m⟩ _) node.location

/-- Evaluation leaves the depth as it was, however it ends. -/
theorem depth_evaluate (settings : Settings) (budget : Nat) (node : Node) (scope : ScopeId)
    (m : Machine) : (Run.machine (evaluate settings budget node scope m)).depth = m.depth := by
  rw [← observe_fst follower]
  exact (follow_balanced settings budget node scope m).restored

/-- **Evaluation gives back the depth that it takes.**  From any depth, and whichever way the
evaluation of a node ends, the depth is what it was before; the depth allowed is a setting, which
nothing changes.  The evaluation has a course, from the machine that it starts with to the one that
it leaves, along which the depth changes by one at most at a time.  The depth is never less than at
the start, and never more than both the depth at the start and the depth allowed. -/
theorem evaluation_restores_depth (settings : Settings) (host : Limits) (node : Node)
    (scope : ScopeId) (m : Machine) :
    (Run.machine (evaluateHere settings host node scope m)).depth = m.depth ∧
    ∃ course : List Machine,
      followHere settings host node scope m = (evaluateHere settings host node scope m, course) ∧
      course.head? = some m ∧
      course.getLast? = some (Run.machine (evaluateHere settings host node scope m)) ∧
      (course.IsChain fun before after => (after.depth - before.depth).natAbs ≤ 1) ∧
      ∀ m' ∈ course, m.depth ≤ m'.depth ∧ m'.depth ≤ max m.depth settings.maxDepth := by
  have hbalanced : Run.Balanced settings.maxDepth m (followHere settings host node scope m) :=
    follow_balanced ..
  have hplain := followHere_fst settings host node scope m
  rw [← hplain]
  exact ⟨hbalanced.restored, _, rfl, hbalanced.starts, hbalanced.ends, hbalanced.steps,
    hbalanced.within⟩

/-- A pair that starts below depth zero, and whose second component prints at the depth allowed. -/
example :
    let node : Node := .tuple (.int 1 none) (.print (.str "a" none) none) none
    (followHere ⟨1, false⟩ .standard node 0 { depth := -2 }).2.map Machine.depth =
      [-2, -2, -1, -1, 0, -1, -1, -1, 0, 0, 1, 0, 0, 0, -1, -1, -2] := by
  rfl

end Rinha
