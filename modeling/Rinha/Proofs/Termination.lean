import Rinha.Proofs.Failures
import Rinha.Proofs.Safety

/-!
# Evaluation ends

A call goes from a node to the body of a closure that may be any tree, so nothing about the tree
gets smaller.  What bounds an evaluation is the depth: it is one more at every node that is
evaluated on behalf of another one, and a node at the depth allowed is refused.  A budget that
covers what is left of the depth, and the refusal, is therefore never used up.

Three searches are made on the way, and each goes down in a measure of its own: the search for a
name in the numbers of scopes, since scopes outwards are older; comparison and the text of a value
in the nesting of pairs.  Each is given here with a count of the steps that it may take, so that
running out of steps shows.

## Main definitions

* `Store.searchWithin`, `Value.equalWithin`, `Value.displayWithin` -- searches that can run out.
* `follow_valid` -- the stores along the course of an evaluation are valid.
-/

namespace Rinha

/-! ## Searches that can run out of steps -/

namespace Store

/-- The search for a name from a scope outwards, one step for each scope.  It has no answer if the
steps run out before the name or the outermost scope is reached. -/
def searchWithin (store : Store) (name : String) : Nat → ScopeId → Option (Option Value)
  | 0, _ => none
  | steps + 1, id =>
    match store.scopes[id]? with
    | none => some none
    | some scope =>
      match scope.bindings.get? name with
      | some value => some (some value)
      | none =>
        match scope.parent with
        | some parent => store.searchWithin name steps parent
        | none => some none

/-- If scopes hang off older ones, then a search has its answer within as many steps as the scope
has older ones, and itself. -/
theorem searchWithin_eq_lookup {s : Store} (hs : s.WellFormed) (name : String) {steps : Nat}
    {e : ScopeId} (h : e < steps) : s.searchWithin name steps e = some (s.lookup e name) := by
  suffices hwithin : ∀ steps' e, e < steps → e < steps' →
      s.searchWithin name steps e = some (s.lookupWithin name steps' e) from
    hwithin (e + 1) e h (Nat.lt_succ_self e)
  clear h e
  induction steps with
  | zero => simp
  | succ steps ih =>
    intro steps' e h h'
    obtain ⟨steps', rfl⟩ : ∃ n, steps' = n + 1 := ⟨steps' - 1, by omega⟩
    simp only [searchWithin, lookupWithin]
    cases hscope : s.scopes[e]? with
    | none => rfl
    | some scope =>
      cases hget : scope.bindings.get? name with
      | some value => simp [hget]
      | none =>
        cases hparent : scope.parent with
        | none => simp [hget, hparent]
        | some parent =>
          have holder : parent < e := hs e scope hscope parent hparent
          simpa [hget, hparent] using ih steps' parent
            (Nat.lt_of_lt_of_le holder (Nat.le_of_lt_succ h))
            (Nat.lt_of_lt_of_le holder (Nat.le_of_lt_succ h'))

end Store

namespace Value

/-- How deeply pairs are nested in a value, counted from one. -/
def nesting : Value → Nat
  | .tuple left right => max left.nesting right.nesting + 1
  | _ => 1

theorem one_le_nesting (x : Value) : 1 ≤ x.nesting := by
  cases x <;> simp [nesting]

/-- Equality of values, one step for each level of pairs.  It has no answer if the steps run out. -/
def equalWithin : Nat → Value → Value → Option Bool
  | 0, _, _ => none
  | steps + 1, .tuple a b, .tuple c d => do
    if ← equalWithin steps a c then equalWithin steps b d else return false
  | _ + 1, x, y => some (x.equal y)

/-- The text of a value, one step for each level of pairs.  It has no answer if the steps run
out. -/
def displayWithin : Nat → Value → Option (Except TooManyDigits String)
  | 0, _ => none
  | steps + 1, .tuple a b => do
    match ← displayWithin steps a with
    | .error refusal => return .error refusal
    | .ok left =>
      let right ← displayWithin steps b
      return right.map fun right => "(" ++ left ++ ", " ++ right ++ ")"
  | _ + 1, x => some x.display

/-- Equality of values has its answer within the nesting of either. -/
theorem equalWithin_eq_equal {steps : Nat} {x y : Value} (h : min x.nesting y.nesting ≤ steps) :
    equalWithin steps x y = some (x.equal y) := by
  induction steps generalizing x y with
  | zero =>
    have hx := x.one_le_nesting
    have hy := y.one_le_nesting
    omega
  | succ steps ih =>
    by_cases hpairs : (∃ a b, x = .tuple a b) ∧ ∃ c d, y = .tuple c d
    · obtain ⟨⟨a, b, rfl⟩, c, d, rfl⟩ := hpairs
      simp only [nesting] at h
      have hleft : equalWithin steps a c = some (a.equal c) := ih (by omega)
      have hright : equalWithin steps b d = some (b.equal d) := ih (by omega)
      cases hequal : a.equal c <;> simp [equalWithin, equal, hleft, hright, hequal]
    · rw [equalWithin]
      rintro a b c d rfl rfl
      exact hpairs ⟨⟨a, b, rfl⟩, c, d, rfl⟩

/-- The text of a value has its answer within the nesting of the value. -/
theorem displayWithin_eq_display {steps : Nat} {x : Value} (h : x.nesting ≤ steps) :
    displayWithin steps x = some x.display := by
  induction steps generalizing x with
  | zero =>
    have hx := x.one_le_nesting
    omega
  | succ steps ih =>
    cases x with
    | tuple a b =>
      simp only [nesting] at h
      have hleft : displayWithin steps a = some a.display := ih (by omega)
      have hright : displayWithin steps b = some b.display := ih (by omega)
      simp only [displayWithin, display, hleft, hright]
      cases a.display with
      | error refusal => rfl
      | ok left => cases b.display <;> rfl
    | _ => rfl

end Value

/-! ## Stores along a course -/

/-- Along the course of a plan all stores are valid, if they are along those of nodes. -/
theorem Plan.follow_valid (settings : Settings) {eval : Observed (List Machine)}
    {plain : Node → ScopeId → Run Value}
    (hplain : ∀ node e m, (eval node e m).1 = plain node e m)
    (hkeeps : ∀ node e (m : Machine), m.store.Valid → e < m.store.scopes.size →
      Run.Keeps m (plain node e m))
    (heval : ∀ node e (m : Machine), m.store.Valid → e < m.store.scopes.size →
      ∀ m' ∈ (eval node e m).2, m'.store.Valid)
    (plan : Plan) (site : Site) (m : Machine) (hm : m.store.Valid)
    (he : site.scope < m.store.scopes.size)
    (hplan : plan.Carries fun _ _ _ captured => captured < m.store.scopes.size) :
    ∀ m' ∈ (plan.observe follower settings eval site m).2, m'.store.Valid := by
  induction plan generalizing m with
  | done result => cases result <;> simpa [observe, follower] using hm
  | write text rest ih =>
    exact List.forall_mem_cons.2 ⟨hm, ih (m.wrote text) hm he hplan⟩
  | define name value rest ih =>
    exact List.forall_mem_cons.2 ⟨hm, ih (m.bound settings site.scope name value)
      (by simpa using hm.define hplan.1 site.scope name) (by simpa using he)
      (by simpa using hplan.2)⟩
  | fetch name =>
    simp only [observe]
    cases m.store.lookup site.scope name <;> simpa [follower] using hm
  | close parameters body =>
    have hclosed : (m.closed parameters body site.scope).store.Valid :=
      hm.newClosure parameters body site.scope
    simpa [observe, follower] using ⟨hm, hclosed⟩
  | child node rest ih =>
    have hnode := hkeeps node site.scope m hm he
    have hcourse := heval node site.scope m hm he
    rw [← hplain node site.scope m] at hnode
    simp only [observe]
    cases h : eval node site.scope m with
    | mk result course =>
      rw [h] at hnode hcourse
      cases result with
      | error halt m' => exact hcourse
      | ok value m' =>
        have hgrows : m.store.scopes.size ≤ m'.store.scopes.size := hnode.grows
        refine List.forall_mem_append.2 ⟨hcourse, ih value m' hnode.store
          (Nat.lt_of_lt_of_le he hgrows) ?_⟩
        exact hplan _ (fun _ _ _ _ hlt => Nat.lt_of_lt_of_le hlt hgrows) value
          (hnode.value value m' rfl)
  | enter id parameters body captured values =>
    obtain ⟨hcaptured, hvalues⟩ := hplan
    refine List.forall_mem_cons.2 ⟨hm, heval body _ _ ?_ (by simp)⟩
    rw [Machine.store_entered]
    exact hm.enter hcaptured hvalues parameters

/-- Along the course of an evaluation in a scope of a valid store all stores are valid. -/
theorem follow_valid (settings : Settings) (budget : Nat) (node : Node) (e : ScopeId) (m : Machine)
    (hm : m.store.Valid) (he : e < m.store.scopes.size) :
    ∀ m' ∈ (follow settings budget node e m).2, m'.store.Valid := by
  refine observe_induction (P := fun _ e m outcome => m.store.Valid → e < m.store.scopes.size →
    ∀ m' ∈ (outcome.2 : List Machine), m'.store.Valid)
    (fun _ _ m hm _ => ?_) (fun _ _ m _ hm _ => ?_) (fun budget ih node e m _ hm he => ?_)
    budget node e m hm he
  · simpa [follower] using hm
  · simpa [follower] using hm
  · have hstarted : (m.started settings node.kind).store.Valid := by simpa using hm
    have hscope : e < (m.started settings node.kind).store.scopes.size := by simpa using he
    have hplain := observe_fst follower settings budget
    have hinner := Plan.follow_valid settings hplain (evaluate_keeps settings budget) ih
      (.ofNode node) ⟨node, e, m⟩ _ hstarted hscope (Plan.carries_ofNode node _)
    have hended := Plan.run_keeps settings (evaluate_keeps settings budget) (.ofNode node) e _
      hstarted hscope (Plan.carries_ofNode node _)
    rw [← Plan.observe_fst follower hplain (.ofNode node) ⟨node, e, m⟩] at hended
    simp only [follower, List.forall_mem_cons, List.forall_mem_append, List.not_mem_nil,
      false_implies, implies_true, and_true]
    exact ⟨hm, by simpa using hm, hinner, hended.store⟩

/-! ## Evaluation ends -/

/-- **Evaluation ends.**  Take one unit for every evaluation in progress, as many units as there is
depth left over, and one more.  From any depth, evaluation in a scope of a valid store then yields a
value or fails as programs do, and never for want of a unit: any greater budget gives the same
result, as does a host that can follow that far.  Wherever the evaluation comes by, the search for a
name goes through no more scopes than the number of the scope that it starts from says, and itself;
and to compare values, or to write one, takes no more steps than pairs are nested in it. -/
theorem evaluation_ends (settings : Settings) (node : Node) (scope : ScopeId) (m : Machine)
    (hm : m.store.Valid) (hscope : scope < m.store.scopes.size) :
    let units := (max 0 (settings.maxDepth - m.depth)).toNat + 1
    ((∃ x m', evaluate settings units node scope m = .ok x m') ∨
      ∃ halt m', evaluate settings units node scope m = .error halt m' ∧ halt.OfProgram) ∧
    (∀ budget, units ≤ budget →
      evaluate settings budget node scope m = evaluate settings units node scope m) ∧
    (∀ host : Limits, units ≤ host.evaluating settings.debug →
      evaluateHere settings host node scope m = evaluate settings units node scope m) ∧
    (∃ course, follow settings units node scope m =
        (evaluate settings units node scope m, course) ∧
      ∀ m' ∈ course, ∀ (name : String) (e : ScopeId) (steps : Nat), e < steps →
        m'.store.searchWithin name steps e = some (m'.store.lookup e name)) ∧
    (∀ (x y : Value) (steps : Nat), min x.nesting y.nesting ≤ steps →
      Value.equalWithin steps x y = some (x.equal y)) ∧
    ∀ (x : Value) (steps : Nat), x.nesting ≤ steps →
      Value.displayWithin steps x = some x.display := by
  intro units
  have hunits : settings.budget m.depth = units := by
    simp only [Settings.budget, units]
    omega
  refine ⟨?_, ?_, ?_, ⟨(follow settings units node scope m).2, ?_, ?_⟩, ?_, ?_⟩
  · cases hresult : evaluate settings units node scope m with
    | ok x m' => exact .inl ⟨x, m', rfl⟩
    | error halt m' =>
      rcases evaluate_ofProgram hm hscope hresult with rfl | hfailure
      · exact absurd hresult (evaluate_ne_nesting (Nat.le_of_eq hunits) node scope m')
      · exact .inr ⟨halt, m', rfl, hfailure⟩
  · intro budget hbudget
    exact evaluate_eq_of_ne_nesting hbudget
      (evaluate_ne_nesting (Nat.le_of_eq hunits) node scope)
  · intro host hhost
    rw [evaluateHere_apply, Settings.budgetOn, hunits, Nat.min_eq_left hhost]
  · rw [← observe_fst follower]
    rfl
  · intro m' hm' name e steps he
    exact Store.searchWithin_eq_lookup
      (follow_valid settings units node scope m hm hscope m' hm').parents name he
  · exact fun x y steps h => Value.equalWithin_eq_equal h
  · exact fun x steps h => Value.displayWithin_eq_display h

/-- A function that calls itself without end, called two levels below depth zero.  It prints at each
call, until the depth allowed is reached. -/
theorem evaluation_ends_endless_call :
    let body : Node := .call (.var "f" none) [.print (.var "n" none) none] none
    let m : Machine :=
      { store := ⟨#[⟨none, [("f", .closure 0 ["n"] body 0)]⟩], 1⟩, depth := -2 }
    let node : Node := .call (.var "f" none) [.str "a" none] none
    m.store.Valid ∧ 0 < m.store.scopes.size ∧
    ∃ halt m', evaluate ⟨3, false⟩ 6 node 0 m = .error halt m' ∧ halt.OfProgram ∧
      m'.output = "a\na\n" ∧ evaluate ⟨3, false⟩ 99 node 0 m = .error halt m' := by
  intro body m node
  have hempty : Store.Valid {} := ⟨by simp [Store.WellFormed], by simp⟩
  have hscope : (({} : Store).newScope none []).2.Valid := hempty.newScope (by simp) (by simp)
  have hvalid : m.store.Valid :=
    (hscope.newClosure ["n"] body 0).define (x := .closure 0 ["n"] body 0) Nat.one_pos 0 "f"
  have hsize : 0 < m.store.scopes.size := Nat.one_pos
  have hfails : (Run.outcome (evaluate ⟨3, false⟩ 6 node 0 m)).isOk = false := by decide +kernel
  have hprints : (Run.machine (evaluate ⟨3, false⟩ 6 node 0 m)).output = "a\na\n" := by
    decide +kernel
  obtain ⟨hends, hbudget, -⟩ := evaluation_ends ⟨3, false⟩ node 0 m hvalid hsize
  rcases hends with ⟨x, m', hvalue⟩ | ⟨halt, m', herror, hfailure⟩
  · have hvalue : evaluate ⟨3, false⟩ 6 node 0 m = .ok x m' := hvalue
    rw [hvalue] at hfails
    cases hfails
  · have herror : evaluate ⟨3, false⟩ 6 node 0 m = .error halt m' := herror
    rw [herror] at hprints
    exact ⟨hvalid, hsize, halt, m', herror, hfailure, hprints,
      (hbudget 99 (by decide)).trans herror⟩

end Rinha
