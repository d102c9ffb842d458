import Rinha.Proofs.Plan

/-!
# The depth limit only cuts runs short

Two runs of one node that differ only in the depth allowed do the same, up to the point where the
smaller depth is exceeded.  So whatever ends within the smaller depth ends in the same way within
the greater one, and what was printed before the smaller depth was exceeded is the beginning of
what is printed within the greater one.  The same goes for runs that differ in the budget, up to the
point where the smaller budget is spent.

## Main definitions

* `Machine.Prints` -- output is only ever added to.
* `Halt.isLimit` -- whether a computation was cut short, by the depth allowed or by the host.
* `Truncates` -- a result is that of a longer run, unless that was cut short.
* `evaluate_truncates` -- evaluation under a smaller depth and within a smaller budget truncates.
-/

namespace Rinha

/-! ## Output grows -/

/-- One machine has printed what another one has, and possibly more. -/
def Machine.Prints (m m' : Machine) : Prop :=
  ∃ text, m'.output = m.output ++ text

theorem Machine.Prints.of_output_eq {m m' : Machine} (h : m'.output = m.output) : m.Prints m' :=
  ⟨"", by simp [h]⟩

theorem Machine.Prints.refl (m : Machine) : m.Prints m :=
  .of_output_eq rfl

theorem Machine.Prints.trans {m m' m'' : Machine} (h : m.Prints m') (h' : m'.Prints m'') :
    m.Prints m'' := by
  obtain ⟨first, hfirst⟩ := h
  obtain ⟨second, hsecond⟩ := h'
  exact ⟨first ++ second, by rw [hsecond, hfirst, String.append_assoc]⟩

/-- Carrying out a plan only adds to the output, if evaluating nodes does. -/
theorem Plan.run_prints {settings : Settings} {eval : Node → ScopeId → Run Value}
    (heval : ∀ node scope (m : Machine), m.Prints (Run.machine (eval node scope m)))
    (plan : Plan) (scope : ScopeId) (m : Machine) :
    m.Prints (Run.machine (plan.run settings eval scope m)) := by
  induction plan generalizing m with
  | done result => cases result <;> exact .refl m
  | write text rest ih => exact .trans ⟨text, rfl⟩ (ih (m.wrote text))
  | define name value rest ih => exact .trans (.of_output_eq (Machine.output_bound ..)) (ih _)
  | fetch name =>
    simp only [run]
    cases m.store.lookup scope name <;> exact .refl m
  | close parameters body => exact .of_output_eq rfl
  | child node rest ih =>
    have hnode := heval node scope m
    simp only [run]
    cases h : eval node scope m with
    | error halt m' => simpa [h] using hnode
    | ok value m' => exact .trans (by simpa [h] using hnode) (ih value m')
  | enter id parameters body captured values =>
    exact .trans (.of_output_eq (Machine.output_entered ..)) (heval ..)

/-- Evaluation only adds to the output. -/
theorem evaluate_prints (settings : Settings) (budget : Nat) (node : Node) (scope : ScopeId)
    (m : Machine) : m.Prints (Run.machine (evaluate settings budget node scope m)) := by
  refine evaluate_induction (P := fun _ _ m result => m.Prints (Run.machine result))
    (fun _ _ m => .refl m) (fun _ _ m _ => .of_output_eq ?_) ?_ budget node scope m
  · exact Machine.output_noted ..
  · intro eval heval node scope m _
    obtain ⟨text, h⟩ := Plan.run_prints heval (.ofNode node) scope (m.started settings node.kind)
    exact ⟨text, by simpa using h⟩

/-! ## Runs cut short -/

/-- Whether a computation was cut short: the depth allowed was exceeded, whether that could be
worded or not, or what the host can follow. -/
def Halt.isLimit : Halt → Bool
  | .error (.stackExhausted _) _ => true
  | .unworded _ => true
  | .nesting => true
  | _ => false

@[simp] theorem Halt.isLimit_within (location : Option Location) (halt : Halt) :
    (halt.within location).isLimit = halt.isLimit := by
  rcases halt with ⟨e, _ | l⟩ | _ | _ | _ | _
  · cases e <;> rfl
  all_goals rfl

@[simp] theorem Halt.isLimit_refusal (maxDepth : Int) (location : Option Location) :
    (Halt.refusal maxDepth location).isLimit := by
  rcases Halt.refusal_cases maxDepth with ⟨limit, h⟩ | h <;> simp [h, isLimit]

theorem Halt.isLimit_iff {halt : Halt} :
    halt.isLimit ↔ halt = .nesting ∨
      (∃ allowed location, halt = .error (.stackExhausted allowed) location) ∨
      ∃ refusal, halt = .unworded refusal := by
  constructor
  · intro h
    cases halt with
    | nesting => exact .inl rfl
    | unworded refusal => exact .inr (.inr ⟨refusal, rfl⟩)
    | error e location =>
      cases e with
      | stackExhausted allowed => exact .inr (.inl ⟨allowed, location, rfl⟩)
      | _ => cases h
    | _ => cases h
  · rintro (rfl | ⟨allowed, location, rfl⟩ | ⟨refusal, rfl⟩) <;> rfl

/-- A result is that of a longer run, unless something that cuts runs short did so.  Then what had
been printed is the beginning of what the longer run prints. -/
inductive Truncates (cuts : Halt → Prop) {α : Type} :
    EStateM.Result Halt Machine α → EStateM.Result Halt Machine α → Prop
  | same (result : EStateM.Result Halt Machine α) : Truncates cuts result result
  | cut {halt : Halt} {m : Machine} {full : EStateM.Result Halt Machine α} :
    cuts halt → m.Prints (Run.machine full) → Truncates cuts (.error halt m) full

section

variable {cuts : Halt → Prop} {α : Type} {short full : EStateM.Result Halt Machine α}

theorem Truncates.leave (h : Truncates cuts short full)
    (hwithin : ∀ location halt, cuts halt → cuts (halt.within location))
    (location : Option Location) :
    Truncates cuts (Run.leave location short) (Run.leave location full) := by
  cases h with
  | same => exact .same _
  | cut hlimit hprints =>
    refine .cut (hwithin _ _ hlimit) ?_
    obtain ⟨text, h⟩ := hprints
    exact ⟨text, by simpa using h⟩

/-- What was not cut short is the result of the longer run. -/
theorem Truncates.full_eq (h : Truncates cuts short full)
    (hcut : ∀ halt m, short = .error halt m → ¬ cuts halt) : full = short := by
  cases h with
  | same => rfl
  | cut hlimit => exact absurd hlimit (hcut _ _ rfl)

/-- The longer run prints what the shorter one does, and possibly more. -/
theorem Truncates.prints (h : Truncates cuts short full) :
    (Run.machine short).Prints (Run.machine full) := by
  cases h with
  | same => exact .refl _
  | cut _ hprints => exact hprints

end

section

variable {cuts : Halt → Prop} {low high : Int} {debug : Bool}

/-- Carrying out a plan truncates if evaluating nodes does.  Once the shorter run is cut, all that
the longer one still does is to print more. -/
theorem Plan.run_truncates {eval eval' : Node → ScopeId → Run Value}
    (heval : ∀ node scope m, Truncates cuts (eval node scope m) (eval' node scope m))
    (hprints : ∀ node scope (m : Machine), m.Prints (Run.machine (eval' node scope m)))
    (plan : Plan) (scope : ScopeId) (m : Machine) :
    Truncates cuts (plan.run ⟨low, debug⟩ eval scope m) (plan.run ⟨high, debug⟩ eval' scope m) := by
  induction plan generalizing m with
  | done result => cases result <;> exact .same _
  | write text rest ih => exact ih (m.wrote text)
  | define name value rest ih => exact ih (m.bound ⟨high, debug⟩ scope name value)
  | fetch name => exact .same _
  | close parameters body => exact .same _
  | child node rest ih =>
    simp only [run]
    generalize hshort : eval node scope m = short
    generalize hfull : eval' node scope m = full
    have hnode : Truncates cuts short full := hshort ▸ hfull ▸ heval node scope m
    cases hnode with
    | same =>
      cases short with
      | error halt m' => exact .same _
      | ok value m' => exact ih value m'
    | cut hlimit hcut =>
      refine .cut hlimit ?_
      cases full with
      | error halt m' => exact hcut
      | ok value m' => exact hcut.trans (run_prints hprints (rest value) scope m')
  | enter id parameters body captured values => exact heval ..

/-- Evaluation within a smaller budget truncates, as does evaluation under a smaller depth, if
exceeding the smaller one cuts a run short. -/
theorem evaluate_truncates (hwithin : ∀ location halt, cuts halt → cuts (halt.within location))
    (hspent : cuts .nesting)
    (hdepth : low = high ∨ low ≤ high ∧ ∀ location, cuts (.refusal low location))
    {budget budget' : Nat} (hbudget : budget ≤ budget') (node : Node) (scope : ScopeId)
    (m : Machine) :
    Truncates cuts (evaluate ⟨low, debug⟩ budget node scope m)
      (evaluate ⟨high, debug⟩ budget' node scope m) := by
  induction budget generalizing budget' node scope m with
  | zero => exact .cut hspent (evaluate_prints ..)
  | succ budget ih =>
    obtain ⟨budget', rfl⟩ : ∃ n, budget' = n + 1 := ⟨budget' - 1, by omega⟩
    by_cases hlow : low ≤ m.depth
    · rw [evaluate_refused ⟨low, debug⟩ budget node scope m hlow]
      rcases hdepth with rfl | ⟨-, hrefused⟩
      · rw [evaluate_refused ⟨low, debug⟩ budget' node scope m hlow]
        exact .same _
      · exact .cut (hrefused _)
          (.trans (.of_output_eq (Machine.output_noted ..).symm) (evaluate_prints ..))
    · have hgranted : m.depth < low := Int.not_le.1 hlow
      have hle : low ≤ high := hdepth.elim Int.le_of_eq And.left
      rw [evaluate_granted ⟨low, debug⟩ budget node scope m hgranted,
        evaluate_granted ⟨high, debug⟩ budget' node scope m (Int.lt_of_lt_of_le hgranted hle)]
      refine Truncates.leave ?_ hwithin node.location
      exact Plan.run_truncates
        (fun node scope m => ih (Nat.le_of_succ_le_succ hbudget) node scope m)
        (fun node scope m => evaluate_prints ..) (.ofNode node) scope _

/-- From the depth that the machine is at, a smaller depth truncates on any host. -/
theorem evaluateHere_truncates (h : low ≤ high) (host : Limits) (node : Node) (scope : ScopeId)
    (m : Machine) :
    Truncates (·.isLimit) (evaluateHere ⟨low, debug⟩ host node scope m)
      (evaluateHere ⟨high, debug⟩ host node scope m) := by
  rw [evaluateHere_apply, evaluateHere_apply]
  refine evaluate_truncates (by simp) (show Halt.nesting.isLimit from rfl)
    (.inr ⟨h, Halt.isLimit_refusal low⟩) ?_ node scope m
  simp only [Settings.budgetOn, Settings.budget]
  omega

end

/-- What ends within a budget, and not because the budget is spent, ends in the same way within
every greater one. -/
theorem evaluate_eq_of_ne_nesting {settings : Settings} {budget budget' : Nat}
    (hbudget : budget ≤ budget') {node : Node} {scope : ScopeId} {m : Machine}
    (h : ∀ m', evaluate settings budget node scope m ≠ .error .nesting m') :
    evaluate settings budget' node scope m = evaluate settings budget node scope m := by
  have hwithin : ∀ location halt, halt = .nesting → Halt.within location halt = .nesting := by
    rintro location _ rfl
    rfl
  have htruncates : Truncates (· = .nesting) (evaluate settings budget node scope m)
      (evaluate settings budget' node scope m) :=
    evaluate_truncates hwithin rfl (.inl rfl) hbudget node scope m
  refine htruncates.full_eq ?_
  rintro _ m' herror rfl
  exact h m' herror

/-- **The depth limit only cuts runs short.**  What ends under a limit, with a value or with any
failure that is not due to a limit, ends under every greater one with the same result and the same
machine.  What a run has printed when it exceeds the limit is the beginning of what is printed under
every greater one. -/
theorem depth_limit_only_truncates (low high : Int) (h : low ≤ high) (debug : Bool) (host : Limits)
    (node : Node) (scope : ScopeId) (m : Machine) :
    (∀ value m', evaluateHere ⟨low, debug⟩ host node scope m = .ok value m' →
      evaluateHere ⟨high, debug⟩ host node scope m = .ok value m') ∧
    (∀ halt m', evaluateHere ⟨low, debug⟩ host node scope m = .error halt m' → ¬ halt.isLimit →
      evaluateHere ⟨high, debug⟩ host node scope m = .error halt m') ∧
    (∀ halt m', evaluateHere ⟨low, debug⟩ host node scope m = .error halt m' → halt.isLimit →
      ∃ text, (Run.machine (evaluateHere ⟨high, debug⟩ host node scope m)).output =
        m'.output ++ text) := by
  have htruncates : Truncates (·.isLimit) (evaluateHere ⟨low, debug⟩ host node scope m)
      (evaluateHere ⟨high, debug⟩ host node scope m) := evaluateHere_truncates h host node scope m
  refine ⟨?_, ?_, ?_⟩
  · intro value m' hvalue
    rw [htruncates.full_eq (by simp [hvalue]), hvalue]
  · intro halt m' herror hlimit
    rw [htruncates.full_eq (by simpa [herror] using hlimit), herror]
  · intro halt m' herror _
    have hprints := htruncates.prints
    rw [herror] at hprints
    exact hprints

/-- A program that prints two lines within a depth of four, and only the first within three. -/
theorem depth_limit_only_truncates_two_lines :
    let node : Node :=
      .letIn "x" (.print (.str "a" none) none) (.print (.print (.str "b" none) none) none) none
    evaluateHere ⟨9, false⟩ .standard node 0 {} = .ok (.str "b") { output := "a\nb\nb\n" } ∧
    ∃ text, (Run.machine (evaluateHere ⟨4, false⟩ .standard node 0 {})).output = "a\n" ++ text := by
  intro node
  have hvalue := (depth_limit_only_truncates 4 9 (by decide) false .standard node 0 {}).1
    (.str "b") { output := "a\nb\nb\n" } rfl
  have hstops : (Run.halt? (evaluateHere ⟨3, false⟩ .standard node 0 {})).any Halt.isLimit := by
    decide +kernel
  have houtput : (Run.machine (evaluateHere ⟨3, false⟩ .standard node 0 {})).output = "a\n" := by
    decide +kernel
  have hcut := (depth_limit_only_truncates 3 4 (by decide) false .standard node 0 {}).2.2
  cases hresult : evaluateHere ⟨3, false⟩ .standard node 0 {} with
  | ok value m =>
    rw [hresult] at hstops
    cases hstops
  | error halt m =>
    rw [hresult] at hstops houtput hcut
    have hbegins := hcut halt m rfl hstops
    rw [Run.machine_error] at houtput
    rw [houtput] at hbegins
    exact ⟨hvalue, hbegins⟩

/-- A refusal that cannot be worded is due to a limit, although a host sees only that an integer has
too many digits.  Under a limit so low that it cannot be written, a literal is refused so, and under
a greater one it has a value. -/
theorem not_truncated_of_unworded :
    ¬ ∀ (low high : Int) (debug : Bool) (host : Limits) (node : Node) (scope : ScopeId)
      (m m' : Machine) (halt : Halt), low ≤ high →
      evaluateHere ⟨low, debug⟩ host node scope m = .error halt m' → halt ≠ .nesting →
      (∀ limit location, halt.seen ≠ .error (.stackExhausted limit) location) →
      ∃ halt', evaluateHere ⟨high, debug⟩ host node scope m = .error halt' m' ∧
        halt'.seen = halt.seen := by
  intro h
  obtain ⟨low, hlow, hrefused⟩ := exists_evaluateHere_unworded
  obtain ⟨halt', hvalue, -⟩ := h low 1 false .standard (.int 1 none) 0 {} {} (.unworded .writing)
    (Int.le_trans hlow (by decide)) (hrefused (.int 1 none) 0 {} (Int.le_refl 0)) (by simp)
    (by simp [Halt.seen])
  have hone : evaluateHere ⟨1, false⟩ .standard (.int 1 none) 0 {} = .ok (.int 1) {} := rfl
  rw [hone] at hvalue
  cases hvalue

end Rinha
