import Rinha.Proofs.DepthLimit

/-!
# What is printed and logged has no bearing on evaluation

Evaluation adds to the output and to the trace of a machine and reads neither of them.  So a change
of what has been recorded so far is not seen: it commutes with evaluation.  Two such changes matter.
One puts an output and a trace in front of those of the machine.  The other drops the trace, and
takes a traced run to an untraced one.

Together they say what debugging does: the run is the same, and its trace is longer.

## Main definitions

* `Machine.Unseen` -- a change of machines that evaluation does not see.
* `evaluate_unseen` -- such a change commutes with evaluation.
* `Machine.after`, `evaluate_after` -- an output and a trace from before.
* `Machine.untraced`, `evaluate_untraced` -- a run without its trace.
* `interpret_traced`, `debugging_inert` -- a traced run is an untraced one with a longer trace.
-/

namespace Rinha

/-! ## Changes that are not seen -/

/-- A change of machines that is not seen: it leaves the store and the depth as they are, and it
makes no difference whether it is done before printing, logging, changing the store or changing the
depth, or after that.  The runs before and after the change may log differently. -/
structure Machine.Unseen (settings settings' : Settings) (f : Machine → Machine) : Prop where
  maxDepth : settings'.maxDepth = settings.maxDepth
  store : ∀ m, (f m).store = m.store
  depth : ∀ m, (f m).depth = m.depth
  noted : ∀ m entry, f (m.noted settings entry) = (f m).noted settings' entry
  wrote : ∀ m text, f (m.wrote text) = (f m).wrote text
  withStore : ∀ (m : Machine) store, f { m with store := store } = { f m with store := store }
  withDepth : ∀ (m : Machine) depth, f { m with depth := depth } = { f m with depth := depth }

/-- The end of a computation at a changed machine. -/
def Run.alter {α : Type} (f : Machine → Machine) :
    EStateM.Result Halt Machine α → EStateM.Result Halt Machine α
  | .ok value m => .ok value (f m)
  | .error halt m => .error halt (f m)

@[simp] theorem Run.machine_alter {α : Type} (f : Machine → Machine)
    (result : EStateM.Result Halt Machine α) :
    machine (alter f result) = f (machine result) := by
  cases result <;> rfl

namespace Machine.Unseen

variable {settings settings' : Settings} {f : Machine → Machine}

theorem bound (h : Unseen settings settings' f) (m : Machine) (scope : ScopeId) (name : String)
    (value : Value) :
    f (m.bound settings scope name value) = (f m).bound settings' scope name value := by
  rw [Machine.bound, h.noted, h.withStore m, Machine.bound, h.store]

theorem closed (h : Unseen settings settings' f) (m : Machine) (parameters : List String)
    (body : Node) (scope : ScopeId) :
    f (m.closed parameters body scope) = (f m).closed parameters body scope := by
  rw [Machine.closed, h.withStore m, Machine.closed, h.store]

theorem entered (h : Unseen settings settings' f) (m : Machine) (parameters : List String)
    (captured : ScopeId) (values : List Value) :
    f (m.entered settings parameters captured values) =
      (f m).entered settings' parameters captured values := by
  rw [Machine.entered, h.noted, h.withStore m, Machine.entered, h.store]

theorem started (h : Unseen settings settings' f) (m : Machine) (kind : Node.Kind) :
    f (m.started settings kind) = (f m).started settings' kind := by
  rw [Machine.started, Machine.deeper, h.withDepth, h.noted, Machine.started, Machine.deeper,
    depth_noted, depth_noted, h.depth]

theorem ended (h : Unseen settings settings' f) (m : Machine) : f m.ended = (f m).ended := by
  rw [Machine.ended, h.withDepth m, Machine.ended, h.depth]

theorem leave (h : Unseen settings settings' f) {α : Type} (location : Option Location)
    (result : EStateM.Result Halt Machine α) :
    Run.alter f (Run.leave location result) = Run.leave location (Run.alter f result) := by
  cases result <;> simp only [Run.leave, Run.alter, h.ended]

/-- It is not seen when a plan is carried out, if it is not seen when nodes are evaluated. -/
theorem run (h : Unseen settings settings' f) {eval eval' : Node → ScopeId → Run Value}
    (heval : ∀ node scope m, eval' node scope (f m) = Run.alter f (eval node scope m))
    (plan : Plan) (scope : ScopeId) (m : Machine) :
    plan.run settings' eval' scope (f m) = Run.alter f (plan.run settings eval scope m) := by
  induction plan generalizing m with
  | done result => cases result <;> rfl
  | write text rest ih => simp only [Plan.run, ← h.wrote, ih]
  | define name value rest ih => simp only [Plan.run, ← h.bound, ih]
  | fetch name =>
    simp only [Plan.run, h.store]
    cases m.store.lookup scope name <;> rfl
  | close parameters body => simp only [Plan.run, h.store, ← h.closed, Run.alter]
  | child node rest ih =>
    simp only [Plan.run, heval]
    cases eval node scope m with
    | ok value m' => exact ih value m'
    | error halt m' => rfl
  | enter id parameters body captured values =>
    simp only [Plan.run, h.store, ← h.entered, heval]

end Machine.Unseen

/-- A change that is not seen commutes with evaluation. -/
theorem evaluate_unseen {settings settings' : Settings} {f : Machine → Machine}
    (h : Machine.Unseen settings settings' f) (budget : Nat) (node : Node) (scope : ScopeId)
    (m : Machine) :
    evaluate settings' budget node scope (f m) =
      Run.alter f (evaluate settings budget node scope m) := by
  induction budget generalizing node scope m with
  | zero => rfl
  | succ budget ih =>
    by_cases hdepth : settings.maxDepth ≤ m.depth
    · have hdepth' : settings'.maxDepth ≤ (f m).depth := by rwa [h.maxDepth, h.depth]
      simp only [evaluate_refused settings budget node scope m hdepth,
        evaluate_refused settings' budget node scope (f m) hdepth', h.maxDepth, h.depth, ← h.noted]
      rfl
    · have hgranted : m.depth < settings.maxDepth := Int.not_le.1 hdepth
      have hgranted' : (f m).depth < settings'.maxDepth := by rwa [h.maxDepth, h.depth]
      rw [evaluate_granted settings budget node scope m hgranted,
        evaluate_granted settings' budget node scope (f m) hgranted', h.leave, ← h.started]
      exact congrArg (Run.leave node.location) (h.run ih (.ofNode node) scope _)

/-! ## What was recorded before -/

namespace Machine

/-- The machine with an output and a trace in front of its own. -/
def after (output : String) (trace : Array TraceEntry) (m : Machine) : Machine :=
  { m with output := output ++ m.output, trace := trace ++ m.trace }

/-- The machine without what it has recorded. -/
def silent (m : Machine) : Machine :=
  { m with output := "", trace := #[] }

@[simp] theorem store_after (output : String) (trace : Array TraceEntry) (m : Machine) :
    (m.after output trace).store = m.store := rfl

@[simp] theorem output_after (output : String) (trace : Array TraceEntry) (m : Machine) :
    (m.after output trace).output = output ++ m.output := rfl

@[simp] theorem depth_after (output : String) (trace : Array TraceEntry) (m : Machine) :
    (m.after output trace).depth = m.depth := rfl

/-- A machine is what it is without its records, with those in front. -/
theorem after_silent (m : Machine) : m.silent.after m.output m.trace = m := by
  simp [silent, after]

theorem unseen_after (settings : Settings) (output : String) (trace : Array TraceEntry) :
    Unseen settings settings (after output trace) where
  maxDepth := rfl
  store _ := rfl
  depth _ := rfl
  noted m entry := by
    unfold noted
    split
    · simp [after]
    · rfl
  wrote m text := by simp [wrote, after, String.append_assoc]
  withStore _ _ := rfl
  withDepth _ _ := rfl

end Machine

/-- Evaluation goes on from what was recorded before as it would go from nothing. -/
theorem evaluate_after (settings : Settings) (budget : Nat) (node : Node) (scope : ScopeId)
    (m : Machine) :
    evaluate settings budget node scope m =
      Run.alter (.after m.output m.trace) (evaluate settings budget node scope m.silent) := by
  rw [← evaluate_unseen (Machine.unseen_after settings m.output m.trace), m.after_silent]

/-! ## Runs without their traces -/

namespace Machine

/-- The machine without its trace. -/
def untraced (m : Machine) : Machine :=
  { m with trace := #[] }

/-- The machine with entries at the end of its trace. -/
def logged (entries : Array TraceEntry) (m : Machine) : Machine :=
  { m with trace := m.trace ++ entries }

@[simp] theorem trace_logged (entries : Array TraceEntry) (m : Machine) :
    (m.logged entries).trace = m.trace ++ entries := rfl

@[simp] theorem untraced_silent (m : Machine) : m.silent.untraced = m.silent := rfl

@[simp] theorem logged_empty (m : Machine) : m.logged #[] = m := by
  simp [logged]

theorem unseen_untraced (maxDepth : Int) (debug : Bool) :
    Unseen ⟨maxDepth, debug⟩ ⟨maxDepth, false⟩ untraced where
  maxDepth := rfl
  store _ := rfl
  depth _ := rfl
  noted m entry := by
    unfold noted
    split <;> rfl
  wrote _ _ := rfl
  withStore _ _ := rfl
  withDepth _ _ := rfl

end Machine

/-- Without its trace a run is an untraced one. -/
theorem evaluate_untraced (maxDepth : Int) (debug : Bool) (budget : Nat) (node : Node)
    (scope : ScopeId) (m : Machine) :
    evaluate ⟨maxDepth, false⟩ budget node scope m.untraced =
      Run.alter .untraced (evaluate ⟨maxDepth, debug⟩ budget node scope m) :=
  evaluate_unseen (Machine.unseen_untraced maxDepth debug) budget node scope m

/-- A traced run is an untraced one with entries at the end of the trace, where the untraced one
adds none. -/
theorem evaluate_traced (maxDepth : Int) (budget : Nat) (node : Node) (scope : ScopeId)
    (m : Machine) :
    (∃ entries, evaluate ⟨maxDepth, true⟩ budget node scope m =
      Run.alter (.logged entries) (evaluate ⟨maxDepth, false⟩ budget node scope m)) ∧
    (Run.machine (evaluate ⟨maxDepth, false⟩ budget node scope m)).trace = m.trace := by
  -- Both runs go on from the records of the machine, and without them one is the other untraced.
  have htraced := evaluate_after ⟨maxDepth, true⟩ budget node scope m
  have hplain := evaluate_after ⟨maxDepth, false⟩ budget node scope m
  have huntraced := evaluate_untraced maxDepth true budget node scope m.silent
  rw [Machine.untraced_silent] at huntraced
  rw [htraced, hplain, huntraced]
  cases evaluate ⟨maxDepth, true⟩ budget node scope m.silent with
  | ok value m' =>
    exact ⟨⟨m'.trace, by simp [Run.alter, Machine.after, Machine.untraced, Machine.logged]⟩,
      by simp [Run.alter, Machine.after, Machine.untraced]⟩
  | error halt m' =>
    exact ⟨⟨m'.trace, by simp [Run.alter, Machine.after, Machine.untraced, Machine.logged]⟩,
      by simp [Run.alter, Machine.after, Machine.untraced]⟩

/-- The end of a program comes to the same before its machine is changed and after that. -/
theorem Run.conclude_alter_logged {α : Type} (maxDepth depth : Int) (entries : Array TraceEntry)
    (result : EStateM.Result Halt Machine α) :
    Run.conclude ⟨maxDepth, true⟩ depth (Run.alter (.logged entries) result) =
      Run.alter (.logged entries) (Run.conclude ⟨maxDepth, false⟩ depth result) := by
  cases result <;> rfl

@[simp] theorem Run.trace_conclude {α : Type} (settings : Settings) (depth : Int)
    (result : EStateM.Result Halt Machine α) :
    (machine (Run.conclude settings depth result)).trace = (machine result).trace := by
  cases result <;> rfl

/-- Within the reach of the host, a traced evaluation is an untraced one with entries at the end of
the trace. -/
theorem evaluateHere_traced {maxDepth : Int} {host : Limits} {node : Node} {scope : ScopeId}
    {m : Machine}
    (hhost : ∀ debug m', evaluateHere ⟨maxDepth, debug⟩ host node scope m ≠ .error .nesting m') :
    ∃ entries, evaluateHere ⟨maxDepth, true⟩ host node scope m =
      Run.alter (.logged entries) (evaluateHere ⟨maxDepth, false⟩ host node scope m) := by
  simp only [evaluateHere_apply] at hhost ⊢
  -- The host does not follow both runs as far, but the budget of each could as well be the greater.
  let budget (debug : Bool) : Nat := Settings.budgetOn ⟨maxDepth, debug⟩ host m.depth
  let most := max (budget true) (budget false)
  obtain ⟨⟨entries, hentries⟩, -⟩ := evaluate_traced maxDepth most node scope m
  have htraced : evaluate ⟨maxDepth, true⟩ most node scope m =
      evaluate ⟨maxDepth, true⟩ (budget true) node scope m :=
    evaluate_eq_of_ne_nesting (Nat.le_max_left ..) (hhost true)
  have hplain : evaluate ⟨maxDepth, false⟩ most node scope m =
      evaluate ⟨maxDepth, false⟩ (budget false) node scope m :=
    evaluate_eq_of_ne_nesting (Nat.le_max_right ..) (hhost false)
  rw [htraced, hplain] at hentries
  exact ⟨entries, hentries⟩

/-- An untraced evaluation adds nothing to the trace. -/
theorem trace_evaluateHere (maxDepth : Int) (host : Limits) (node : Node) (scope : ScopeId)
    (m : Machine) :
    (Run.machine (evaluateHere ⟨maxDepth, false⟩ host node scope m)).trace = m.trace := by
  rw [evaluateHere_apply]
  exact (evaluate_traced maxDepth _ node scope m).2

/-- A run of a program concludes an evaluation from the depth at which programs start. -/
theorem interpret_eq_conclude (settings : Settings) (host : Limits) (root : Node) (m : Machine) :
    interpret settings host root m =
      Run.conclude settings m.depth
        (evaluateHere settings host root m.store.scopes.size m.fresh) := by
  rw [interpret_apply, evaluateHere_apply]
  rfl

/-- **Debugging is inert.**  Where the host can follow a run both under debugging and without,
evaluating a node under debugging ends with the same value or the same failure, with its location,
as without, and leaves the same machine, with the same output, store and depth, but for entries that
are added to the trace.  Without debugging none are.  The same goes for a whole program. -/
theorem debugging_inert (maxDepth : Int) (host : Limits) (node : Node) (m : Machine) :
    (∀ scope,
      ((∀ debug m', evaluateHere ⟨maxDepth, debug⟩ host node scope m ≠ .error .nesting m') →
        ∃ entries, evaluateHere ⟨maxDepth, true⟩ host node scope m =
          Run.alter (.logged entries) (evaluateHere ⟨maxDepth, false⟩ host node scope m)) ∧
      (Run.machine (evaluateHere ⟨maxDepth, false⟩ host node scope m)).trace = m.trace) ∧
    ((∀ debug m', evaluateHere ⟨maxDepth, debug⟩ host node m.store.scopes.size m.fresh ≠
        .error .nesting m') →
      ∃ entries, interpret ⟨maxDepth, true⟩ host node m =
        Run.alter (.logged entries) (interpret ⟨maxDepth, false⟩ host node m)) ∧
    (Run.machine (interpret ⟨maxDepth, false⟩ host node m)).trace = m.trace := by
  refine ⟨fun scope => ⟨evaluateHere_traced, trace_evaluateHere maxDepth host node scope m⟩,
    fun hhost => ?_, ?_⟩
  · obtain ⟨entries, hentries⟩ := evaluateHere_traced hhost
    refine ⟨entries, ?_⟩
    rw [interpret_eq_conclude, interpret_eq_conclude, hentries, Run.conclude_alter_logged]
  · rw [interpret_eq_conclude, Run.trace_conclude, trace_evaluateHere]
    rfl

/-- A traced run of a call that prints adds a line for every node, for the binding and for the
call. -/
theorem debugging_inert_call :
    let f : Node := .function ["x"] (.print (.var "x" none) none) none
    let root : Node := .letIn "f" f (.call (.var "f" none) [.str "a" none] none) none
    let entries : Array TraceEntry := #[.evaluating .letIn 0, .evaluating .function 1,
      .bound "f" "Closure", .evaluating .call 1, .evaluating .var 2, .evaluating .str 2,
      .calling ["x"], .evaluating .print 2, .evaluating .var 3]
    interpret ⟨5, true⟩ .standard root {} =
      Run.alter (.logged entries) (interpret ⟨5, false⟩ .standard root {}) := by
  intro f root entries
  have hends : ∀ debug,
      (Run.halt? (evaluateHere ⟨5, debug⟩ .standard root 0 (Machine.fresh {}))).isNone := by
    decide +kernel
  have hhost : ∀ debug m', evaluateHere ⟨5, debug⟩ .standard root 0 (Machine.fresh {}) ≠
      .error .nesting m' := by
    intro debug m' hnesting
    have hnone := hends debug
    rw [hnesting] at hnone
    cases hnone
  obtain ⟨-, htraced, hplain⟩ := debugging_inert 5 .standard root {}
  obtain ⟨added, hadded⟩ := htraced hhost
  have htrace : (Run.machine (interpret ⟨5, true⟩ .standard root {})).trace = entries := by
    decide +kernel
  rw [hadded, Run.machine_alter, Machine.trace_logged, hplain, Array.empty_append] at htrace
  rw [hadded, htrace]

/-- A host that provides frames for no more follows a run without debugging further than under
debugging: where the entries of the trace take the last of them, the traced run stops and the other
does not. -/
theorem not_inert_beyond_host :
    ¬ ∀ (maxDepth : Int) (frames : Nat) (root : Node) (m : Machine),
      ∃ entries, interpret ⟨maxDepth, true⟩ (.ofFrames frames) root m =
        Run.alter (.logged entries) (interpret ⟨maxDepth, false⟩ (.ofFrames frames) root m) := by
  intro h
  let nested : Node := .print (.print (.print (.int 1 none) none) none) none
  let root : Node := .print (.print (.print nested none) none) none
  obtain ⟨entries, hentries⟩ := h 9 32 root {}
  have hsame : ∀ result : EStateM.Result Halt Machine Value,
      Run.halt? (Run.alter (.logged entries) result) = Run.halt? result := by
    intro result
    cases result <;> rfl
  have hplain : (Run.halt? (interpret ⟨9, false⟩ (.ofFrames 32) root {})).isNone := by
    decide +kernel
  have htraced : (Run.halt? (interpret ⟨9, true⟩ (.ofFrames 32) root {})).isSome := by
    decide +kernel
  rw [hentries, hsame, Option.isSome_iff_ne_none] at htraced
  exact htraced (Option.isNone_iff_eq_none.1 hplain)

end Rinha
