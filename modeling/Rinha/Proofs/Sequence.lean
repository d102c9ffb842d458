import Rinha.Proofs.Unread

/-!
# Sequences of nodes

A chain of let nodes that all bind the name `_` evaluates one node after the other for what it does,
and has the value of the last one.  The nodes of a chain are evaluated ever deeper in one program.
If no variable has the name then evaluating them as programs of their own, one after the other in
the same scope, comes to the same, unless the chain is refused for its depth.  Only the binding of
the name in that scope is different, also for the closures that are made on the way and see it.

## Main definitions

* `Node.sequence` -- the chain of let nodes.
* `evaluateInTurn` -- programs one after the other, up to the first that fails.
* `Store.Unread` -- no closure that can be reached has a variable of a given name.
* `evaluate_sequence_agrees` -- the two agree, by induction along the chain.
-/

namespace Rinha

/-- Evaluates nodes one after the other for what they do, and then a last one for its value. -/
def Node.sequence (nodes : List Node) (last : Node) : Node :=
  nodes.foldr (fun node next => .letIn "_" node next none) last

theorem Node.sequence_cons (node : Node) (nodes : List Node) (last : Node) :
    Node.sequence (node :: nodes) last = .letIn "_" node (Node.sequence nodes last) none := rfl

/-- Evaluates several nodes as programs in one scope, first to last, up to the first that fails.
The value is that of the last one. -/
def evaluateInTurn (settings : Settings) (host : Limits) (scope : ScopeId) :
    List Node → Node → Run Value
  | [], last => evaluateProgram settings host last scope
  | node :: nodes, last => do
    let _ ← evaluateProgram settings host node scope
    evaluateInTurn settings host scope nodes last

/-! ## Along the chain -/

section

variable {name : String} {inside : ScopeId → Prop} {e : ScopeId}

/-- An evaluation that no limit cut short is not changed when it ends as a program. -/
theorem Run.Agrees.conclude {result result' : EStateM.Result Halt Machine Value}
    (h : Run.Agrees name inside e result result') (settings : Settings) (depth : Int) :
    Run.Agrees name inside e result (Run.conclude settings depth result') := by
  cases h with
  | ok hvalue hm => exact .ok hvalue (hm.of_eq rfl rfl rfl rfl)
  | @error halt m m' hm =>
    by_cases hnesting : halt = .nesting
    · exact .cut (hnesting ▸ rfl)
    · rw [Run.conclude, settings.exhausted_of_ne_nesting hnesting]
      exact .error (hm.of_eq rfl rfl rfl rfl)
  | cut hlimit => exact .cut hlimit

/-- A program agrees with the same node further down in a program. -/
theorem evaluateProgram_agrees (settings : Settings) (host : Limits) {budget : Nat}
    (hbudget : budget ≤ settings.budgetOn host 0) {node : Node}
    (hnode : node.ignores name) (he : inside e) {m m' : Machine} (h : m.Agrees name inside e m')
    (hm : 0 ≤ m.depth) :
    Run.Agrees name inside e (evaluate settings budget node e m)
      (evaluateProgram settings host node e m') := by
  have hzero : m.Agrees name inside e { m' with depth := 0 } := h.of_eq rfl rfl rfl rfl
  rw [evaluateProgram_apply]
  exact (evaluate_agrees settings hbudget hnode he hzero hm).conclude settings m'.depth

/-- Binding the name in the scope makes no difference. -/
theorem Machine.Agrees.bound_self {m m' : Machine} (h : m.Agrees name inside e m') {value : Value}
    (hvalue : value.All (Value.Ignoring name inside)) (settings : Settings) :
    (m.bound settings e name value).Agrees name inside e m' where
  ignores := by simpa using h.ignores.define hvalue e name
  scope := by simpa using h.scope
  store := by rw [Machine.store_bound, Store.without_define_self, h.store]
  output := by simpa using h.output

/-- A let node without a location does no more than to evaluate its operand, bind it and go on. -/
theorem evaluate_letIn (settings : Settings) (budget : Nat) (node next : Node) (m : Machine)
    (hgranted : m.depth < settings.maxDepth) :
    evaluate settings (budget + 1) (.letIn name node next none) e m =
      Run.leave none (match evaluate settings budget node e (m.started settings .letIn) with
        | .ok value m' => evaluate settings budget next e (m'.bound settings e name value)
        | .error halt m' => .error halt m') := by
  rw [evaluate_granted settings budget _ e m hgranted]
  simp only [Plan.ofNode, Plan.run, Plan.run_last]
  rfl

/-- A let node without a location gives an error no location. -/
theorem Run.Agrees.leave_none {result result' : EStateM.Result Halt Machine Value}
    (h : Run.Agrees name inside e result result') :
    Run.Agrees name inside e (Run.leave none result) result' := by
  cases h with
  | ok hvalue hm => exact .ok hvalue (hm.of_eq rfl rfl rfl rfl)
  | @error halt m m' hm =>
    have hhalt : halt.within none = halt := by rcases halt with ⟨_, _ | _⟩ | _ | _ | _ | _ <;> rfl
    rw [Run.leave, hhalt]
    exact .error (hm.of_eq rfl rfl rfl rfl)
  | cut hlimit => exact .cut (by simpa using hlimit)

end

/-- The chain, wherever it stands in a program, agrees with the nodes in turn. -/
theorem evaluate_sequence_agrees (settings : Settings) (host : Limits) {inside : ScopeId → Prop}
    {e : ScopeId} (he : inside e) {nodes : List Node} {last : Node}
    (hnodes : ∀ node ∈ nodes, node.ignores "_") (hlast : last.ignores "_") {budget : Nat}
    (hbudget : budget ≤ settings.budgetOn host 0) {m m' : Machine}
    (h : m.Agrees "_" inside e m') (hm : 0 ≤ m.depth) :
    Run.Agrees "_" inside e (evaluate settings budget (Node.sequence nodes last) e m)
      (evaluateInTurn settings host e nodes last m') := by
  induction nodes generalizing budget m m' with
  | nil => exact evaluateProgram_agrees settings host hbudget hlast he h hm
  | cons node nodes ih =>
    obtain ⟨hnode, hnodes⟩ := List.forall_mem_cons.1 hnodes
    cases budget with
    | zero => exact .cut rfl
    | succ budget =>
      by_cases hdepth : settings.maxDepth ≤ m.depth
      · rw [evaluate_refused settings budget _ e m hdepth]
        exact .cut (Halt.isLimit_refusal ..)
      · have hbudget' : budget ≤ settings.budgetOn host 0 :=
          Nat.le_of_succ_le hbudget
        have hstarted : (m.started settings .letIn).Agrees "_" inside e m' :=
          h.of_eq (Machine.store_started ..) rfl (Machine.output_started ..) rfl
        have hfirst := evaluateProgram_agrees settings host hbudget' hnode he hstarted
          (by simpa using Int.le_add_one hm)
        have hsame := depth_evaluate settings budget node e (m.started settings .letIn)
        rw [Node.sequence_cons, evaluate_letIn settings budget node _ m (Int.not_le.1 hdepth),
          evaluateInTurn, Run.bind_apply]
        refine Run.Agrees.leave_none ?_
        generalize evaluate settings budget node e (m.started settings .letIn) = result
          at hfirst hsame ⊢
        generalize evaluateProgram settings host node e m' = result' at hfirst ⊢
        cases hfirst with
        | @ok value m₁ m₁' hvalue hagrees =>
          -- The let node has taken a level, so the rest of the chain starts deeper than a program.
          refine ih hnodes hbudget' (hagrees.bound_self hvalue settings) ?_
          rw [Run.machine_ok, Machine.depth_started] at hsame
          rw [Machine.depth_bound]
          omega
        | error hagrees => exact .error hagrees
        | cut hlimit => exact .cut hlimit

/-! ## The law -/

/-- All values that can be reached from a scope are values of the language, and in the bodies of
their closures no variable has a given name. -/
def Store.Unread (s : Store) (e : ScopeId) (name : String) : Prop :=
  ∀ id, s.Reaches e id → ∀ scope, s.scopes[id]? = some scope →
    ∀ other x, scope.bindings.get? other = some x → x.All fun _ _ body _ => body.ignores name

/-- What is known of the closures in a value is known of the scopes that they captured. -/
theorem Value.All.ignoring {name : String} {inside : ScopeId → Prop} {x : Value}
    (h : x.All fun _ _ body _ => body.ignores name) (hinside : ∀ p ∈ x.captured, inside p) :
    x.All (Value.Ignoring name inside) := by
  induction x with
  | int | str | bool => trivial
  | tuple a b iha ihb =>
    exact ⟨iha h.1 fun p hp => hinside p (List.mem_append_left _ hp),
      ihb h.2 fun p hp => hinside p (List.mem_append_right _ hp)⟩
  | closure id parameters body captured => exact ⟨hinside captured List.mem_cons_self, h⟩
  | foreign => exact h

/-- The scopes that can be reached, with those that are still to be made, are closed off. -/
theorem Store.Unread.ignores {s : Store} {e : ScopeId} {name : String} (h : s.Unread e name) :
    s.Ignores name fun id => s.Reaches e id ∨ s.scopes.size ≤ id where
  fresh _ := .inr
  parents id scope hid hscope p hp := by
    have hlt : id < s.scopes.size := (Array.getElem?_eq_some_iff.1 hscope).1
    exact .inl (.parent (hid.resolve_right (Nat.not_le.2 hlt)) hscope hp)
  values id scope hid hscope other x hx := by
    have hlt : id < s.scopes.size := (Array.getElem?_eq_some_iff.1 hscope).1
    have hreach : s.Reaches e id := hid.resolve_right (Nat.not_le.2 hlt)
    exact (h id hreach scope hscope other x hx).ignoring fun p hp =>
      .inl (.captured hreach hscope hx hp)

/-- The end of a program is due to a limit if that of the evaluation was. -/
theorem Settings.isLimit_exhausted {halt : Halt} (h : halt.isLimit) (settings : Settings) :
    (settings.exhausted halt).isLimit := by
  obtain rfl | ⟨allowed, location, rfl⟩ | ⟨refusal, rfl⟩ := Halt.isLimit_iff.1 h
  · exact Halt.isLimit_refusal ..
  · rfl
  · rfl

/-- **Law of sequences.**  Take nodes in which no variable is named `_`, and a scope from which only
closures can be reached in whose bodies none is.  If evaluating the chain of these nodes in the
scope is not refused for its depth, then evaluating the nodes in turn as programs of their own
prints the same text and ends with the same value or the same failure, with its location; and it
leaves the same scopes, the same closures and the same bindings, except for that of `_` in the
scope. -/
theorem sequence_agrees_in_turn (settings : Settings) (host : Limits) (nodes : List Node)
    (last : Node) (e : ScopeId) (m : Machine) (he : e < m.store.scopes.size)
    (hnodes : ∀ node ∈ nodes, node.ignores "_") (hlast : last.ignores "_")
    (hstore : m.store.Unread e "_")
    (hlimit : ∀ halt m', evaluateProgram settings host (Node.sequence nodes last) e m =
      .error halt m' → ¬ halt.isLimit) :
    (∀ value m', evaluateProgram settings host (Node.sequence nodes last) e m = .ok value m' →
      ∃ m'', evaluateInTurn settings host e nodes last m = .ok value m'' ∧
        m''.output = m'.output ∧ m''.store.without e "_" = m'.store.without e "_") ∧
    (∀ halt m', evaluateProgram settings host (Node.sequence nodes last) e m = .error halt m' →
      ∃ m'', evaluateInTurn settings host e nodes last m = .error halt m'' ∧
        m''.output = m'.output ∧ m''.store.without e "_" = m'.store.without e "_") := by
  have hstart : Machine.Agrees "_" _ e { m with depth := 0 } m := ⟨hstore.ignores, he, rfl, rfl⟩
  have hagrees := evaluate_sequence_agrees settings host (.inl .here) hnodes hlast (Nat.le_refl _)
    hstart (Int.le_refl 0)
  rw [evaluateProgram_apply] at hlimit ⊢
  generalize evaluate settings (settings.budgetOn host 0)
    (Node.sequence nodes last) e { m with depth := 0 } = chain at hagrees hlimit ⊢
  generalize evaluateInTurn settings host e nodes last m = turns at hagrees ⊢
  cases hagrees with
  | ok _ h =>
    constructor
    · rintro _ _ ⟨⟩
      exact ⟨_, rfl, h.output.symm, h.store.symm⟩
    · rintro _ _ ⟨⟩
  | @error halt m₁ m₂ h =>
    have hnesting : halt ≠ .nesting := by
      rintro rfl
      exact hlimit _ _ rfl (settings.isLimit_exhausted rfl)
    rw [Run.conclude, settings.exhausted_of_ne_nesting hnesting]
    constructor
    · rintro _ _ ⟨⟩
    · rintro _ _ ⟨⟩
      exact ⟨_, rfl, h.output.symm, h.store.symm⟩
  | @cut halt m₁ _ hcut =>
    -- A limit would show in the chain as a refusal.
    exact absurd (settings.isLimit_exhausted hcut) (hlimit _ _ rfl)

/-- A call that prints, a closure that is made where the chain has bound the name, and a failure. -/
theorem sequence_agrees_in_turn_failure :
    let place : Location := ⟨.int 3, .int 9, "f"⟩
    let call : Node := .call (.var "f" none) [] none
    let make : Node := .letIn "g" (.function [] (.var "x" none) none) (.var "g" none) none
    let last : Node := .first (.call (.var "g" none) [] none) (some place)
    let bindings : Bindings :=
      [("x", .str "a"), ("f", .closure 0 [] (.print (.var "x" none) none) 0)]
    let m : Machine := { store := ⟨#[⟨none, bindings⟩], 1⟩, depth := 7 }
    ∃ m', evaluateInTurn ⟨6, false⟩ .standard 0 [call, make] last m =
        .error (.error (.notATuple "Str" "First") (some place)) m' ∧ m'.output = "a\n" ∧
      ((m'.store.without 0 "_").bindings 0).map Prod.fst = ["x", "f", "g"] := by
  intro place call make last bindings m
  have hstore : m.store.Unread 0 "_" := by
    intro id _ scope hscope other x hx
    obtain rfl : id = 0 := by simpa [m] using (Array.getElem?_eq_some_iff.1 hscope).1
    cases hscope
    have hmem : (other, x) ∈ bindings := Bindings.mem_of_get?_eq_some hx
    simp only [bindings, List.mem_cons, Prod.mk.injEq, List.not_mem_nil, or_false] at hmem
    obtain ⟨-, rfl⟩ | ⟨-, rfl⟩ := hmem
    · trivial
    · exact rfl
  have hends :
      (match evaluateProgram ⟨6, false⟩ .standard (Node.sequence [call, make] last) 0 m with
      | .ok .. => none
      | .error halt m₁ =>
        some (halt, m₁.output, ((m₁.store.without 0 "_").bindings 0).map Prod.fst)) =
      some (.error (.notATuple "Str" "First") (some place), "a\n", ["x", "f", "g"]) := by
    decide +kernel
  have hlaw := sequence_agrees_in_turn ⟨6, false⟩ .standard [call, make] last 0 m (by decide)
    (by decide) (by decide) hstore
  cases hchain : evaluateProgram ⟨6, false⟩ .standard (Node.sequence [call, make] last) 0 m with
  | ok value m₁ =>
    rw [hchain] at hends
    cases hends
  | error halt m₁ =>
    rw [hchain] at hends hlaw
    simp only [Option.some.injEq, Prod.mk.injEq] at hends
    obtain ⟨rfl, houtput, hnames⟩ := hends
    have hcause : ¬ (Halt.error (.notATuple "Str" "First") (some place)).isLimit :=
      Bool.false_ne_true
    obtain ⟨m', hturns, houtput', hwithout⟩ := (hlaw (by rintro _ _ ⟨⟩; exact hcause)).2 _ _ rfl
    exact ⟨m', hturns, houtput'.trans houtput, by rw [hwithout, hnames]⟩

/-- Where the depth allowed is too long to be written, a chain that is too deep for the host does
not end in the error for it, and its nodes in turn need not be too deep. -/
theorem not_in_turn_of_unworded :
    ¬ ∀ (settings : Settings) (host : Limits) (nodes : List Node) (last : Node) (e : ScopeId)
      (m m' : Machine) (halt : Halt), e < m.store.scopes.size →
      (∀ node ∈ nodes, node.ignores "_") → last.ignores "_" → m.store.Unread e "_" →
      evaluateProgram settings host (Node.sequence nodes last) e m = .error halt m' →
      (∀ limit location, halt.seen ≠ .error (.stackExhausted limit) location) →
      ∃ halt' m'', evaluateInTurn settings host e nodes last m = .error halt' m'' ∧
        halt'.seen = halt.seen := by
  intro h
  have hbeyond (n : Nat) : ∃ high : Int, 0 < high ∧ n ≤ high.natAbs := ⟨n + 1, by omega, by omega⟩
  obtain ⟨high, hhigh, hlong⟩ := hbeyond decimalBound
  let settings : Settings := ⟨high, false⟩
  let host : Limits := ⟨1, 1, 1, 1⟩
  let m : Machine := { store := ⟨#[⟨none, []⟩], 0⟩ }
  have hbudget : settings.budgetOn host 0 = 1 :=
    Nat.min_eq_right (Nat.succ_le_succ (Nat.zero_le _))
  have hstore : m.store.Unread 0 "_" := by
    intro id _ scope hscope other x hx
    obtain rfl : id = 0 := by simpa [m] using (Array.getElem?_eq_some_iff.1 hscope).1
    cases hscope
    cases hx
  have hint : ∀ n, evaluateProgram settings host (.int n none) 0 m = .ok (.int n) m := by
    intro n
    rw [evaluateProgram_apply, hbudget, evaluate_granted settings 0 _ 0 _ hhigh]
    rfl
  have hchain : evaluateProgram settings host (Node.sequence [.int 1 none] (.int 2 none)) 0 m =
      .error (.unworded .writing) m := by
    rw [evaluateProgram_apply, hbudget, Node.sequence_cons, evaluate_letIn settings 0 _ _ _ hhigh]
    exact congrArg (EStateM.Result.error · m) (Halt.refusal_of_le hlong none)
  have hturns : evaluateInTurn settings host 0 [.int 1 none] (.int 2 none) m = .ok (.int 2) m := by
    simp only [evaluateInTurn, Run.bind_apply, hint]
  obtain ⟨halt', m'', hfails, -⟩ := h settings host [.int 1 none] (.int 2 none) 0 m m _ (by decide)
    (by decide) (by decide) hstore hchain (by simp [Halt.seen])
  rw [hturns] at hfails
  cases hfails

end Rinha
