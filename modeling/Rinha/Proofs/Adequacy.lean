import Rinha.Proofs.Depth
import Rinha.Proofs.Yield

/-!
# Evaluation is adequate for the rules

In a scope of a valid store, a node evaluates to a value, within some depth, exactly if the rules of
the language say so, and likewise for failures.  The text printed and the store left are those that
the rules give.

## Main definitions

* `Run.outcome`, `Run.Concludes` -- how an evaluation ended, if no limit cut it short.
* `evaluate_sound` -- what evaluation concludes, the rules derive.
* `Reaches`, `reaches_closed` -- what the rules derive, evaluation concludes within some depth.
-/

namespace Rinha

/-! ## How evaluations end -/

theorem eq_empty_of_eq_append {a b : String} (h : a = a ++ b) : b = "" := by
  refine (String.append_right_inj a).1 ?_
  rw [← h, String.append_empty]

/-- A result that is due to a limit. -/
def IsCut {α : Type} : Except Halt α → Prop
  | .ok _ => False
  | .error halt => halt.isLimit

namespace Run

/-- What an evaluation yields, whatever it did to the machine and wherever it went wrong. -/
def outcome : EStateM.Result Halt Machine Value → Except Halt Value
  | .ok value _ => .ok value
  | .error halt _ => .error halt.unplaced

@[simp] theorem outcome_leave (location : Option Location)
    (result : EStateM.Result Halt Machine Value) :
    outcome (leave location result) = outcome result := by
  cases result with
  | ok value m => rfl
  | error halt m => simp [leave, outcome]

/-- An evaluation came to an end of its own: no limit cut it short.  It yielded a result, printed a
text and left a store. -/
structure Concludes (m : Machine) (result : EStateM.Result Halt Machine Value)
    (r : Except Halt Value) (o : String) (s : Store) : Prop where
  outcome_eq : outcome result = r
  uncut : ¬ IsCut r
  output : (machine result).output = m.output ++ o
  store : (machine result).store = s

namespace Concludes

variable {m m' : Machine} {result : EStateM.Result Halt Machine Value} {r : Except Halt Value}
  {x : Value} {halt : Halt} {o o' : String} {s s' : Store}

theorem ok_iff :
    Concludes m (.ok x m') r o s ↔ r = .ok x ∧ m'.output = m.output ++ o ∧ m'.store = s := by
  constructor
  · rintro ⟨rfl, -, houtput, hstore⟩
    exact ⟨rfl, houtput, hstore⟩
  · rintro ⟨rfl, houtput, hstore⟩
    exact ⟨rfl, fun h => h, houtput, hstore⟩

theorem error_iff :
    Concludes m (.error halt m') r o s ↔
      r = .error halt.unplaced ∧ ¬ halt.isLimit ∧ m'.output = m.output ++ o ∧ m'.store = s := by
  constructor
  · rintro ⟨rfl, hcut, houtput, hstore⟩
    exact ⟨rfl, by simpa [IsCut, outcome] using hcut, houtput, hstore⟩
  · rintro ⟨rfl, hlimit, houtput, hstore⟩
    exact ⟨rfl, by simpa [IsCut] using hlimit, houtput, hstore⟩

theorem exists_ok (h : Concludes m result (.ok x) o s) : ∃ m', result = .ok x m' := by
  cases result with
  | error halt m' => cases h.outcome_eq
  | ok y m' =>
    cases h.outcome_eq
    exact ⟨m', rfl⟩

theorem exists_error (h : Concludes m result (.error halt) o s) :
    ∃ halt' m', result = .error halt' m' := by
  cases result with
  | error halt' m' => exact ⟨halt', m', rfl⟩
  | ok y m' => cases h.outcome_eq

/-- What is printed later comes after what was printed before. -/
theorem join (hfirst : m'.output = m.output ++ o) (h : Concludes m' result r o' s) :
    Concludes m result r (o ++ o') s :=
  ⟨h.outcome_eq, h.uncut, by rw [h.output, hfirst, String.append_assoc], h.store⟩

/-- What was printed at first comes first. -/
theorem split (h : Concludes m result r o s) (hfirst : m'.output = m.output ++ o')
    (hprints : m'.Prints (machine result)) :
    ∃ o'', o = o' ++ o'' ∧ Concludes m' result r o'' s := by
  obtain ⟨o'', hlast⟩ := hprints
  refine ⟨o'', ?_, h.outcome_eq, h.uncut, hlast, h.store⟩
  have hboth : m.output ++ o = m.output ++ (o' ++ o'') := by
    rw [← h.output, hlast, hfirst, String.append_assoc]
  exact (String.append_right_inj m.output).1 hboth

/-- The same from a machine that has printed the same. -/
theorem of_output_eq (h : Concludes m' result r o s) (houtput : m'.output = m.output) :
    Concludes m result r o s :=
  ⟨h.outcome_eq, h.uncut, houtput ▸ h.output, h.store⟩

/-- What is concluded keeps stores valid. -/
theorem keeps (h : Concludes m result (.ok x) o s) (hkeeps : Run.Keeps m result) :
    m.store.Keeps [x] s := by
  obtain ⟨m', rfl⟩ := h.exists_ok
  rw [← h.store]
  exact ⟨hkeeps.store, hkeeps.grows, by simpa using hkeeps.value x m' rfl⟩

/-- A node concludes as its plan does. -/
theorem leave_iff {location : Option Location} :
    Concludes m (leave location result) r o s ↔ Concludes m result r o s := by
  constructor
  · intro h
    exact ⟨by simpa using h.outcome_eq, h.uncut, by simpa using h.output, by simpa using h.store⟩
  · intro h
    exact ⟨by simpa using h.outcome_eq, h.uncut, by simpa using h.output, by simpa using h.store⟩

end Concludes

end Run

/-! ## What evaluation concludes, the rules derive -/

/-- What a plan concludes, it yields, if that holds of nodes. -/
theorem Plan.yields_of_concludes {settings : Settings} {eval : Node → ScopeId → Run Value}
    {D : Yielding}
    (hprints : ∀ node e (m : Machine), m.Prints (Run.machine (eval node e m)))
    (heval : ∀ {node e m r o s}, Run.Concludes m (eval node e m) r o s → D node e m.store r o s)
    {plan : Plan} {e : ScopeId} {m : Machine} {r : Except Halt Value} {o : String} {s : Store}
    (h : Run.Concludes m (plan.run settings eval e m) r o s) : plan.Yields D e m.store r o s := by
  induction plan generalizing m o with
  | done result =>
    cases result with
    | ok value =>
      obtain ⟨rfl, houtput, rfl⟩ := Run.Concludes.ok_iff.1 h
      exact ⟨rfl, eq_empty_of_eq_append houtput, rfl⟩
    | error halt =>
      obtain ⟨rfl, hlimit, houtput, rfl⟩ := Run.Concludes.error_iff.1 h
      exact ⟨rfl, hlimit, eq_empty_of_eq_append houtput, rfl⟩
  | write text rest ih =>
    obtain ⟨o₁, rfl, hrest⟩ := h.split (Machine.output_wrote m text) (run_prints hprints ..)
    exact ⟨o₁, ih (m := m.wrote text) hrest, rfl⟩
  | define name value rest ih =>
    have hrest := ih (h.of_output_eq (Machine.output_bound m settings e name value).symm)
    rwa [Machine.store_bound] at hrest
  | fetch name =>
    simp only [run] at h
    cases hlookup : m.store.lookup e name with
    | some value =>
      simp only [hlookup] at h
      obtain ⟨rfl, houtput, rfl⟩ := Run.Concludes.ok_iff.1 h
      exact ⟨by rw [hlookup], eq_empty_of_eq_append houtput, rfl⟩
    | none =>
      simp only [hlookup] at h
      obtain ⟨rfl, -, houtput, rfl⟩ := Run.Concludes.error_iff.1 h
      exact ⟨by rw [hlookup]; rfl, eq_empty_of_eq_append houtput, rfl⟩
  | close parameters body =>
    obtain ⟨rfl, houtput, rfl⟩ := Run.Concludes.ok_iff.1 h
    exact ⟨rfl, eq_empty_of_eq_append houtput, rfl⟩
  | child node rest ih =>
    simp only [run] at h
    cases hnode : eval node e m with
    | error halt m' =>
      simp only [hnode] at h
      obtain ⟨rfl, hlimit, houtput, hstore⟩ := Run.Concludes.error_iff.1 h
      exact .inl ⟨_, rfl, heval (hnode ▸ h)⟩
    | ok value m' =>
      simp only [hnode] at h
      obtain ⟨o₁, houtput⟩ := hprints node e m
      rw [hnode] at houtput
      obtain ⟨o₂, rfl, hrest⟩ := h.split houtput (run_prints hprints ..)
      have hvalue : D node e m.store (.ok value) o₁ m'.store :=
        heval (hnode ▸ Run.Concludes.ok_iff.2 ⟨rfl, houtput, rfl⟩)
      exact .inr ⟨value, o₁, m'.store, o₂, hvalue, ih value hrest, rfl⟩
  | enter id parameters body captured values =>
    have hbody := heval (h.of_output_eq (Machine.output_entered m settings captured parameters
      values).symm)
    rwa [Machine.store_entered] at hbody

/-- What evaluation in a scope of a valid store concludes, the rules derive. -/
theorem evaluate_sound {settings : Settings} {budget : Nat} {node : Node} {e : ScopeId}
    {m : Machine} {r : Except Halt Value} {o : String} {s : Store} (hm : m.store.Valid)
    (he : e < m.store.scopes.size)
    (h : Run.Concludes m (evaluate settings budget node e m) r o s) :
    Derives node e m.store r o s := by
  induction budget generalizing node e m r o s with
  | zero =>
    have hlimit : Halt.nesting.isLimit := rfl
    exact absurd hlimit (Run.Concludes.error_iff.1 h).2.1
  | succ budget ih =>
    by_cases hdepth : settings.maxDepth ≤ m.depth
    · rw [evaluate_refused settings budget node e m hdepth] at h
      exact absurd (Halt.isLimit_refusal ..) (Run.Concludes.error_iff.1 h).2.1
    · rw [evaluate_granted settings budget node e m (Int.not_le.1 hdepth)] at h
      have hplan := (Run.Concludes.leave_iff.1 h).of_output_eq
        (Machine.output_started m settings node.kind).symm
      have hyields : (Plan.ofNode node).Yields Derivable e (m.started settings node.kind).store r o
          s := by
        refine Plan.yields_of_concludes (evaluate_prints settings budget) ?_ hplan
        intro node e m r o s hchild hm he
        refine ⟨ih hm he hchild, ?_⟩
        rintro x rfl
        exact hchild.keeps (evaluate_keeps settings budget node e m hm he)
      rw [Machine.store_started] at hyields
      exact derives_of_yields hyields hm he

/-! ## What the rules derive, evaluation concludes -/

/-- Evaluation of a node concludes, provided that some depth and some budget are left. -/
def Reaches : Yielding := fun node e s r o s' =>
  ∃ n : Nat, ∀ settings budget (m : Machine), m.store = s → m.depth + n ≤ settings.maxDepth →
    n ≤ budget → Run.Concludes m (evaluate settings budget node e m) r o s'

/-- What a plan yields from what evaluation reaches, carrying it out reaches. -/
theorem Plan.concludes_of_yields {plan : Plan} {e : ScopeId} {s s' : Store}
    {r : Except Halt Value} {o : String} (h : plan.Yields Reaches e s r o s') :
    ∃ n : Nat, ∀ settings budget (m : Machine), m.store = s → m.depth + n ≤ settings.maxDepth →
      n ≤ budget → Run.Concludes m (plan.run settings (evaluate settings budget) e m) r o s' := by
  induction plan generalizing s o with
  | done result =>
    refine ⟨0, ?_⟩
    rintro settings budget m rfl - -
    cases result with
    | ok value =>
      obtain ⟨rfl, rfl, rfl⟩ := h
      exact Run.Concludes.ok_iff.2 ⟨rfl, by simp, rfl⟩
    | error halt =>
      obtain ⟨rfl, hlimit, rfl, rfl⟩ := h
      exact Run.Concludes.error_iff.2 ⟨rfl, hlimit, by simp, rfl⟩
  | write text rest ih =>
    obtain ⟨o₁, hrest, rfl⟩ := h
    obtain ⟨n, hn⟩ := ih hrest
    refine ⟨n, ?_⟩
    intro settings budget m hm hdepth hbudget
    exact Run.Concludes.join rfl (hn settings budget (m.wrote text) hm hdepth hbudget)
  | define name value rest ih =>
    obtain ⟨n, hn⟩ := ih h
    refine ⟨n, ?_⟩
    rintro settings budget m rfl hdepth hbudget
    exact (hn settings budget (m.bound settings e name value) (by simp) (by simpa using hdepth)
      hbudget).of_output_eq (by simp)
  | fetch name =>
    obtain ⟨rfl, rfl, rfl⟩ := h
    refine ⟨0, ?_⟩
    rintro settings budget m rfl - -
    simp only [run]
    cases m.store.lookup e name with
    | some value => exact Run.Concludes.ok_iff.2 ⟨rfl, by simp, rfl⟩
    | none =>
      have hlimit : ¬ (Halt.unlocated (.unboundVariable name)).isLimit := by
        simp [Halt.isLimit, Halt.unlocated]
      exact Run.Concludes.error_iff.2 ⟨rfl, hlimit, by simp, rfl⟩
  | close parameters body =>
    obtain ⟨rfl, rfl, rfl⟩ := h
    refine ⟨0, ?_⟩
    rintro settings budget m rfl - -
    exact Run.Concludes.ok_iff.2 ⟨rfl, by simp, rfl⟩
  | child node rest ih =>
    rcases h with ⟨halt, rfl, n, hn⟩ | ⟨x, o₁, s₁, o₂, ⟨n₁, hn₁⟩, hrest, rfl⟩
    · refine ⟨n, ?_⟩
      intro settings budget m hm hdepth hbudget
      have hnode := hn settings budget m hm hdepth hbudget
      obtain ⟨halt', m', hresult⟩ := hnode.exists_error
      simp only [run, hresult]
      rwa [hresult] at hnode
    · obtain ⟨n₂, hn₂⟩ := ih x hrest
      -- The child gives the depth back, so what is enough for either is enough for both.
      refine ⟨max n₁ n₂, ?_⟩
      intro settings budget m hm hdepth hbudget
      have hnode := hn₁ settings budget m hm (by omega) (by omega)
      obtain ⟨m', hresult⟩ := hnode.exists_ok
      have hsame := depth_evaluate settings budget node e m
      rw [hresult] at hnode hsame
      rw [Run.machine_ok] at hsame
      obtain ⟨-, houtput, hstore⟩ := Run.Concludes.ok_iff.1 hnode
      simp only [run, hresult]
      exact .join houtput (hn₂ settings budget m' hstore (by omega) (by omega))
  | enter id parameters body captured values =>
    obtain ⟨n, hn⟩ := h
    refine ⟨n, ?_⟩
    rintro settings budget m rfl hdepth hbudget
    exact (hn settings budget (m.entered settings parameters captured values) (by simp)
      (by simpa using hdepth) hbudget).of_output_eq (by simp)

/-- What evaluation reaches is closed under plans. -/
theorem reaches_closed : Yielding.Closed Reaches where
  keeps := by
    rintro node e s x o s' ⟨n, hn⟩ hs he
    have hconcludes := hn ⟨n, false⟩ n { store := s } rfl (by simp) (Nat.le_refl n)
    exact hconcludes.keeps (evaluate_keeps ⟨n, false⟩ n node e { store := s } hs he)
  of_yields := by
    intro node e s r o s' h
    obtain ⟨n, hn⟩ := Plan.concludes_of_yields h
    refine ⟨n + 1, ?_⟩
    intro settings budget m hm hdepth hbudget
    obtain ⟨budget, rfl⟩ := Nat.exists_eq_add_of_le' hbudget
    rw [← Nat.add_assoc, evaluate_granted settings _ node e m (by omega), Run.Concludes.leave_iff]
    exact (hn settings _ (m.started settings node.kind) (by simpa using hm) (by simp; omega)
      (Nat.le_add_left ..)).of_output_eq (by simp)

/-- **Adequacy of evaluation.**  In a scope of a valid store, from depth zero, evaluation under some
depth yields a value, prints a text and leaves a store exactly if the rules derive this.  And it
fails under some depth, other than by a limit, exactly if the rules derive that failure with the
same text and store.  The rules know of no depth, no location and no trace. -/
theorem evaluateHere_adequate (debug : Bool) (node : Node) (e : ScopeId) (m : Machine)
    (hm : m.store.Valid) (he : e < m.store.scopes.size) (hdepth : m.depth = 0) (text : String)
    (s : Store) :
    (∀ x, (∃ maxDepth host m', evaluateHere ⟨maxDepth, debug⟩ host node e m = .ok x m' ∧
        m'.output = m.output ++ text ∧ m'.store = s) ↔
      Derives node e m.store (.ok x) text s) ∧
    (∀ cause, (∃ maxDepth host halt m', evaluateHere ⟨maxDepth, debug⟩ host node e m =
        .error halt m' ∧ ¬ halt.isLimit ∧ halt.unplaced = cause ∧
        m'.output = m.output ++ text ∧ m'.store = s) ↔
      Derives node e m.store (.error cause) text s) := by
  have hsound : ∀ {maxDepth host r}, Run.Concludes m (evaluateHere ⟨maxDepth, debug⟩ host node e m)
      r text s → Derives node e m.store r text s := by
    intro maxDepth host r h
    rw [evaluateHere_apply] at h
    exact evaluate_sound hm he h
  have hcomplete : ∀ {r}, Derives node e m.store r text s → ∃ maxDepth host,
      Run.Concludes m (evaluateHere ⟨maxDepth, debug⟩ host node e m) r text s := by
    intro r h
    obtain ⟨n, hn⟩ := h.least reaches_closed hm he
    refine ⟨n, ⟨0, 0, n, n⟩, ?_⟩
    rw [evaluateHere_apply]
    refine hn ⟨n, debug⟩ _ m rfl (by simp [hdepth]) ?_
    have hhost : Limits.evaluating ⟨0, 0, n, n⟩ debug = n := by cases debug <;> rfl
    simp only [Settings.budgetOn, Settings.budget, hhost]
    omega
  refine ⟨fun x => ⟨?_, ?_⟩, fun cause => ⟨?_, ?_⟩⟩
  · rintro ⟨maxDepth, host, m', h, houtput, hstore⟩
    exact hsound (h ▸ Run.Concludes.ok_iff.2 ⟨rfl, houtput, hstore⟩)
  · intro h
    obtain ⟨maxDepth, host, hconcludes⟩ := hcomplete h
    obtain ⟨m', hresult⟩ := hconcludes.exists_ok
    rw [hresult] at hconcludes
    exact ⟨maxDepth, host, m', hresult, (Run.Concludes.ok_iff.1 hconcludes).2⟩
  · rintro ⟨maxDepth, host, halt, m', h, hlimit, rfl, houtput, hstore⟩
    exact hsound (h ▸ Run.Concludes.error_iff.2 ⟨rfl, hlimit, houtput, hstore⟩)
  · intro h
    obtain ⟨maxDepth, host, hconcludes⟩ := hcomplete h
    obtain ⟨halt, m', hresult⟩ := hconcludes.exists_error
    rw [hresult] at hconcludes
    obtain ⟨hcause, hlimit, houtput, hstore⟩ := Run.Concludes.error_iff.1 hconcludes
    cases hcause
    exact ⟨maxDepth, host, halt, m', hresult, hlimit, rfl, houtput, hstore⟩

/-- A call of a function that prints its argument, and a failure to take the argument apart. -/
theorem evaluateHere_adequate_call :
    let body : Node := .print (.var "x" none) none
    let scope : Scope := ⟨none, [("f", .closure 0 ["x"] body 0)]⟩
    let store : Store := { scopes := #[scope], nextClosure := 1 }
    let store' : Store := { scopes := #[scope, ⟨some 0, [("x", .str "hi")]⟩], nextClosure := 1 }
    let node : Node := .call (.var "f" none) [.str "hi" none] none
    Derives node 0 store (.ok (.str "hi")) "hi\n" store' ∧
    Derives (.first node none) 0 store (.error (.unlocated (.notATuple "Str" "First"))) "hi\n"
      store' := by
  intro body scope store store' node
  have hvalid : store.Valid := by
    refine Store.Valid.define (s := { scopes := #[⟨none, []⟩], nextClosure := 1 }) ?_
      (x := .closure 0 ["x"] body 0) Nat.zero_lt_one 0 "f"
    exact Store.Valid.newScope (s := { nextClosure := 1 }) ⟨by simp [Store.WellFormed], by simp⟩
      (by simp) (by simp)
  have hadequate := fun node => evaluateHere_adequate false node 0 { store := store } hvalid
    (by decide) rfl "hi\n" store'
  have hvalue : evaluateHere ⟨9, false⟩ .standard node 0 { store := store } =
      .ok (.str "hi") { store := store', output := "hi\n" } := rfl
  have herror : evaluateHere ⟨9, false⟩ .standard (.first node none) 0 { store := store } =
      .error (.unlocated (.notATuple "Str" "First")) { store := store', output := "hi\n" } := rfl
  exact ⟨((hadequate node).1 _).1 ⟨9, .standard, _, hvalue, rfl, rfl⟩,
    ((hadequate (.first node none)).2 _).1 ⟨9, .standard, _, _, herror, by decide, rfl, rfl, rfl⟩⟩

/-- A refusal that cannot be worded is due to a limit, although a host sees only that an integer has
too many digits.  Under a depth so low that it cannot be written, a literal is refused so, and the
rules derive no failure of a literal. -/
theorem not_derived_of_unworded :
    ¬ ∀ (debug : Bool) (node : Node) (e : ScopeId) (m m' : Machine) (maxDepth : Int)
      (host : Limits) (halt : Halt) (text : String), m.store.Valid → e < m.store.scopes.size →
      m.depth = 0 → evaluateHere ⟨maxDepth, debug⟩ host node e m = .error halt m' →
      halt ≠ .nesting → (∀ limit location, halt.seen ≠ .error (.stackExhausted limit) location) →
      m'.output = m.output ++ text →
      Derives node e m.store (.error halt.seen.unplaced) text m'.store := by
  intro h
  obtain ⟨low, -, hrefused⟩ := exists_evaluateHere_unworded
  let store : Store := (Store.newScope {} none []).2
  have hvalid : store.Valid :=
    Store.Valid.newScope ⟨by simp [Store.WellFormed], by simp⟩ (by simp) (by simp)
  have hliteral := hrefused (.int 1 none) 0 { store := store } (Int.le_refl 0)
  have hderives := h false (.int 1 none) 0 { store := store } { store := store } low .standard
    (.unworded .writing) "" hvalid (by decide) rfl hliteral (by simp) (by simp [Halt.seen]) rfl
  cases hderives with
  | head hhead => cases hhead

end Rinha
