import Rinha.Proofs.Plan

/-!
# Observed runs

A run leaves a result and a machine, and nothing of how it came about.  Some statements are about
more than that: the machines that a run goes through, the nodes that it comes to, the nodes in
progress when it stops, the functions that a node stands under, the closures that were made.  Each
of these can be put together along the run, from what is observed of its nodes and actions one by
one, and the run depends on none of them.

An observer says how observations of one kind are put together.  Where they depend on what was
observed before, or on what stands around a node, they are functions of that.  Whichever observer
it has, an observed run is the plain run with the observation beside it.

## Main definitions

* `Site` -- the evaluation of a node: the node, its scope, and the machine that it starts with.
* `Observer` -- how observations are put together.
* `Plan.observe`, `observe` -- carrying out plans, and evaluation, with an observation.
* `observe_fst` -- without its observation, an observed evaluation is a plain one.
* `observe_induction` -- what holds of all ways to end holds of observed evaluation.
-/

namespace Rinha

/-- The evaluation of a node in a scope, from some machine. -/
structure Site where
  node : Node
  scope : ScopeId
  start : Machine

/-- How observations of evaluations, and of the plans carried out in them, are put together. -/
structure Observer (τ : Type) where
  /-- A node for which there is no budget. -/
  spent : Site → τ
  /-- A node that is refused, at the machine that is left. -/
  refused : Site → Machine → τ
  /-- A node that is granted its depth: the machine at which it is, what is observed of its plan,
  and the machine at which the plan stops. -/
  granted : Site → Machine → τ → Machine → τ
  /-- A plan that is done, or that looks a name up, at a machine that stays as it is. -/
  still : Site → Machine → τ
  /-- A plan that prints or binds at a machine, and what is observed of the rest of it. -/
  acted : Site → Machine → τ → τ
  /-- A plan that makes a closure at a machine. -/
  closed : Site → Machine → List String → Node → τ
  /-- A plan that has the value of a child: what is observed of the child, and of the rest. -/
  followed : τ → τ → τ
  /-- A plan that enters a closure at a machine, and what is observed of the body. -/
  entered : Site → Machine → Nat → τ → τ

/-- An observed evaluation of nodes tells beside its result what was observed. -/
abbrev Observed (τ : Type) :=
  Node → ScopeId → Machine → EStateM.Result Halt Machine Value × τ

section

variable {τ : Type}

/-- Carries out a plan in the evaluation of a node with an observation, given how to evaluate
nodes. -/
def Plan.observe (observer : Observer τ) (settings : Settings) (eval : Observed τ) (site : Site) :
    Plan → Machine → EStateM.Result Halt Machine Value × τ
  | done (.ok value), m => (.ok value m, observer.still site m)
  | done (.error halt), m => (.error halt m, observer.still site m)
  | write text rest, m =>
    let after := rest.observe observer settings eval site (m.wrote text)
    (after.1, observer.acted site m after.2)
  | define name value rest, m =>
    let after := rest.observe observer settings eval site (m.bound settings site.scope name value)
    (after.1, observer.acted site m after.2)
  | fetch name, m =>
    match m.store.lookup site.scope name with
    | some value => (.ok value m, observer.still site m)
    | none => (.error (.unlocated (.unboundVariable name)) m, observer.still site m)
  | close parameters body, m =>
    (.ok (m.store.newClosure parameters body site.scope).1 (m.closed parameters body site.scope),
      observer.closed site m parameters body)
  | child node rest, m =>
    match eval node site.scope m with
    | (.ok value m', observed) =>
      let after := (rest value).observe observer settings eval site m'
      (after.1, observer.followed observed after.2)
    | (.error halt m', observed) => (.error halt m', observed)
  | enter id parameters body captured values, m =>
    let inner := eval body m.store.scopes.size (m.entered settings parameters captured values)
    (inner.1, observer.entered site m id inner.2)

/-- Evaluates a node with an observation, within a budget of nested evaluations. -/
def observe (observer : Observer τ) (settings : Settings) : Nat → Observed τ
  | 0, node, scope, m => (.error .nesting m, observer.spent ⟨node, scope, m⟩)
  | budget + 1, node, scope, m =>
    let noted := m.noted settings (.evaluating node.kind m.depth)
    if settings.maxDepth ≤ m.depth then
      (.error (.refusal settings.maxDepth node.location) noted,
        observer.refused ⟨node, scope, m⟩ noted)
    else
      let inner := (Plan.ofNode node).observe observer settings (observe observer settings budget)
        ⟨node, scope, m⟩ (m.started settings node.kind)
      (Run.leave node.location inner.1,
        observer.granted ⟨node, scope, m⟩ noted inner.2 (Run.machine inner.1))

variable (observer : Observer τ)

/-- Without its observation, carrying out a plan is carrying it out. -/
theorem Plan.observe_fst {settings : Settings} {eval : Observed τ}
    {plain : Node → ScopeId → Run Value}
    (heval : ∀ node scope m, (eval node scope m).1 = plain node scope m) (plan : Plan) (site : Site)
    (m : Machine) :
    (plan.observe observer settings eval site m).1 = plan.run settings plain site.scope m := by
  induction plan generalizing m with
  | done result => cases result <;> rfl
  | write text rest ih => exact ih ..
  | define name value rest ih => exact ih ..
  | fetch name =>
    simp only [observe, run]
    cases m.store.lookup site.scope name <;> rfl
  | close parameters body => rfl
  | child node rest ih =>
    simp only [observe, run, ← heval node site.scope m]
    cases eval node site.scope m with
    | mk result observed =>
      cases result with
      | ok value m' => exact ih value m'
      | error halt m' => rfl
  | enter id parameters body captured values => exact heval ..

section

variable (settings : Settings) (budget : Nat) (node : Node) (scope : ScopeId) (m : Machine)

theorem observe_refused (h : settings.maxDepth ≤ m.depth) :
    observe observer settings (budget + 1) node scope m =
      (.error (.refusal settings.maxDepth node.location)
        (m.noted settings (.evaluating node.kind m.depth)),
        observer.refused ⟨node, scope, m⟩ (m.noted settings (.evaluating node.kind m.depth))) := by
  simp only [observe, if_pos h]

theorem observe_granted (h : m.depth < settings.maxDepth) :
    observe observer settings (budget + 1) node scope m =
      let inner := (Plan.ofNode node).observe observer settings (observe observer settings budget)
        ⟨node, scope, m⟩ (m.started settings node.kind)
      (Run.leave node.location inner.1,
        observer.granted ⟨node, scope, m⟩ (m.noted settings (.evaluating node.kind m.depth)) inner.2
          (Run.machine inner.1)) := by
  simp only [observe, if_neg (Int.not_le.2 h)]

/-- **Observing changes nothing.**  Without its observation, an observed evaluation is an
evaluation. -/
theorem observe_fst :
    (observe observer settings budget node scope m).1 = evaluate settings budget node scope m := by
  induction budget generalizing node scope m with
  | zero => rfl
  | succ budget ih =>
    by_cases hdepth : settings.maxDepth ≤ m.depth
    · rw [evaluate_refused settings budget node scope m hdepth,
        observe_refused observer settings budget node scope m hdepth]
    · have hgranted : m.depth < settings.maxDepth := Int.not_le.1 hdepth
      rw [evaluate_granted settings budget node scope m hgranted,
        observe_granted observer settings budget node scope m hgranted]
      exact congrArg (Run.leave node.location) (Plan.observe_fst observer ih ..)

end

variable {observer}

/-- What holds however an observed evaluation ends: it is shown for an evaluation without a budget,
for a refused node, and for a node whose plan is carried out by observed evaluation that has the
property within a budget of one unit less. -/
theorem observe_induction {settings : Settings}
    {P : Node → ScopeId → Machine → EStateM.Result Halt Machine Value × τ → Prop}
    (spent : ∀ node scope m, P node scope m (.error .nesting m, observer.spent ⟨node, scope, m⟩))
    (refused : ∀ node scope m, settings.maxDepth ≤ m.depth →
      let noted := m.noted settings (.evaluating node.kind m.depth)
      P node scope m (.error (.refusal settings.maxDepth node.location) noted,
        observer.refused ⟨node, scope, m⟩ noted))
    (granted : ∀ budget,
      (∀ node scope m, P node scope m (observe observer settings budget node scope m)) →
      ∀ node scope m, m.depth < settings.maxDepth →
        let inner := (Plan.ofNode node).observe observer settings (observe observer settings budget)
          ⟨node, scope, m⟩ (m.started settings node.kind)
        P node scope m (Run.leave node.location inner.1,
          observer.granted ⟨node, scope, m⟩ (m.noted settings (.evaluating node.kind m.depth))
            inner.2 (Run.machine inner.1)))
    (budget : Nat) (node : Node) (scope : ScopeId) (m : Machine) :
    P node scope m (observe observer settings budget node scope m) := by
  induction budget generalizing node scope m with
  | zero => exact spent node scope m
  | succ budget ih =>
    by_cases hdepth : settings.maxDepth ≤ m.depth
    · rw [observe_refused observer settings budget node scope m hdepth]
      exact refused node scope m hdepth
    · have hgranted : m.depth < settings.maxDepth := Int.not_le.1 hdepth
      rw [observe_granted observer settings budget node scope m hgranted]
      exact granted budget ih node scope m hgranted

end

end Rinha
