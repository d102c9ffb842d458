import Rinha.Proofs.Plan
import Rinha.Proofs.Scopes
import Rinha.Proofs.Values

/-!
# Valid stores

A store is valid if every scope hangs off an older one, and every bound value is a value of the
language whose closures were made over scopes of the store.  Evaluation in a scope of a valid store
leaves a valid store, and what it yields is a value of the language over scopes of that store.

## Main definitions

* `Value.Valid`, `Store.Valid` -- values over the scopes of a store, and valid stores.
* `Plan.Carries` -- the values in a plan have a property, whatever values its children yield.
* `Store.lookup_eq_some_iff`, `Store.lookup_eq_none_iff` -- the search for a name in a valid store.
* `Run.Keeps`, `evaluate_keeps` -- evaluation keeps stores valid.
-/

namespace Rinha

/-- A value of the language whose closures were made over some of the first scopes. -/
def Value.Valid (size : Nat) (x : Value) : Prop :=
  x.All fun _ _ _ captured => captured < size

theorem Value.Valid.mono {size size' : Nat} {x : Value} (h : size ≤ size') (hx : x.Valid size) :
    x.Valid size' :=
  Value.All.mono (fun _ _ _ _ hlt => Nat.lt_of_lt_of_le hlt h) hx

/-- Every scope hangs off an older one, and every value is one of the language over these scopes. -/
structure Store.Valid (store : Store) : Prop where
  parents : store.WellFormed
  values : ∀ (id : ScopeId) (scope : Scope), store.scopes[id]? = some scope →
    ∀ binding ∈ scope.bindings, binding.2.Valid store.scopes.size

namespace Store.Valid

variable {s : Store}

/-- All bound values are values over the scopes of the store. -/
theorem holds (h : s.Valid) : s.Holds (Value.Valid s.scopes.size) :=
  h.values

theorem define (h : s.Valid) {x : Value} (hx : x.Valid s.scopes.size) (e : ScopeId)
    (name : String) : (s.define e name x).Valid where
  parents := by
    intro id scope hscope
    rw [scopes_define, Option.map_eq_some_iff] at hscope
    obtain ⟨old, hold, rfl⟩ := hscope
    have hparent := h.parents id old hold
    split <;> exact hparent
  values := by
    rw [size_define]
    exact h.holds.define hx e name

theorem newScope (h : s.Valid) {parent : Option ScopeId} (hparent : ∀ p ∈ parent, p < s.scopes.size)
    {bindings : Bindings} (hbindings : ∀ binding ∈ bindings, binding.2.Valid s.scopes.size) :
    (s.newScope parent bindings).2.Valid where
  parents := by
    intro id scope hscope p hp
    rw [scopes_newScope] at hscope
    split at hscope
    · next hid =>
      cases hscope
      exact hid ▸ hparent p hp
    · exact h.parents id scope hscope p hp
  values := by
    rw [size_newScope]
    exact (h.holds.newScope hbindings parent).mono fun x => Value.Valid.mono (Nat.le_succ _)

/-- The scope of a call keeps a store valid. -/
theorem enter (h : s.Valid) {captured : ScopeId} (hcaptured : captured < s.scopes.size)
    {values : List Value} (hvalues : ∀ x ∈ values, x.Valid s.scopes.size)
    (parameters : List String) :
    (s.newScope (some captured) (.ofArguments parameters values)).2.Valid := by
  refine h.newScope (by simpa using hcaptured) fun binding hbinding => ?_
  exact hvalues _ (List.of_mem_zip (Bindings.mem_ofArguments hbinding)).2

theorem newClosure (h : s.Valid) (parameters : List String) (body : Node) (e : ScopeId) :
    (s.newClosure parameters body e).2.Valid :=
  ⟨h.parents, h.values⟩

/-- What is found under a name is valid. -/
theorem lookup (h : s.Valid) {e : ScopeId} {name : String} {x : Value}
    (hx : s.lookup e name = some x) : x.Valid s.scopes.size :=
  h.holds.lookup hx

end Store.Valid

/-! ## The search for a name -/

namespace Store

variable {s : Store} {name : String} {e : ScopeId}

theorem lookupWithin_of_resolves (hs : s.WellFormed) {x : Value} (h : s.Resolves name e x) :
    ∀ n, e ≤ n → s.lookupWithin name (n + 1) e = some x := by
  induction h with
  | here hscope hx =>
    intro n hn
    simp only [lookupWithin, hscope, hx]
  | @around e parent scope x hscope hnone hparent _ ih =>
    intro n hn
    have holder : parent < e := hs e scope hscope parent hparent
    simp only [lookupWithin, hscope, hnone, hparent]
    obtain ⟨k, rfl⟩ := Nat.exists_eq_add_of_lt (Nat.lt_of_lt_of_le holder hn)
    exact ih (parent + k) (Nat.le_add_right ..)

theorem lookupWithin_of_unbound (hs : s.WellFormed) (h : s.Unbound name e) :
    ∀ n, e ≤ n → s.lookupWithin name (n + 1) e = none := by
  induction h with
  | outermost hscope hnone hparent =>
    intro n hn
    simp only [lookupWithin, hscope, hnone, hparent]
  | @around e parent scope hscope hnone hparent _ ih =>
    intro n hn
    have holder : parent < e := hs e scope hscope parent hparent
    simp only [lookupWithin, hscope, hnone, hparent]
    obtain ⟨k, rfl⟩ := Nat.exists_eq_add_of_lt (Nat.lt_of_lt_of_le holder hn)
    exact ih (parent + k) (Nat.le_add_right ..)

/-- In a store whose scopes hang off older ones, a name has a value or is unbound. -/
theorem resolves_or_unbound (hs : s.WellFormed) (name : String) (e : ScopeId)
    (he : e < s.scopes.size) : (∃ x, s.Resolves name e x) ∨ s.Unbound name e := by
  -- The scopes outwards are ever older, so that their numbers get less.
  induction e using Nat.strong_induction_on with
  | _ e ih =>
    have hscope : s.scopes[e]? = some s.scopes[e] := Array.getElem?_eq_getElem he
    cases hget : s.scopes[e].bindings.get? name with
    | some x => exact .inl ⟨x, .here hscope hget⟩
    | none =>
      cases hparent : s.scopes[e].parent with
      | none => exact .inr (.outermost hscope hget hparent)
      | some parent =>
        have holder : parent < e := hs e _ hscope parent hparent
        rcases ih parent holder (Nat.lt_trans holder he) with ⟨x, hx⟩ | hunbound
        · exact .inl ⟨x, .around hscope hget hparent hx⟩
        · exact .inr (.around hscope hget hparent hunbound)

/-- What is found under a name is its value by the rules. -/
theorem lookup_eq_some_iff (hs : s.WellFormed) (he : e < s.scopes.size) {x : Value} :
    s.lookup e name = some x ↔ s.Resolves name e x := by
  constructor
  · intro h
    rcases resolves_or_unbound hs name e he with ⟨y, hy⟩ | hunbound
    · have hlookup : s.lookup e name = some y := lookupWithin_of_resolves hs hy e (Nat.le_refl e)
      rw [h] at hlookup
      exact Option.some.inj hlookup ▸ hy
    · rw [lookup, lookupWithin_of_unbound hs hunbound e (Nat.le_refl e)] at h
      cases h
  · intro h
    exact lookupWithin_of_resolves hs h e (Nat.le_refl e)

/-- Nothing is found under a name exactly if it is unbound by the rules. -/
theorem lookup_eq_none_iff (hs : s.WellFormed) (he : e < s.scopes.size) :
    s.lookup e name = none ↔ s.Unbound name e := by
  constructor
  · intro h
    rcases resolves_or_unbound hs name e he with ⟨y, hy⟩ | hunbound
    · rw [lookup, lookupWithin_of_resolves hs hy e (Nat.le_refl e)] at h
      cases h
    · exact hunbound
  · intro h
    exact lookupWithin_of_unbound hs h e (Nat.le_refl e)

end Store

/-! ## The values in a plan -/

namespace Plan

/-- The closures in the values of a plan have a property.  The property may get weaker whenever a
child is evaluated, and the values of children have it as it is then. -/
def Carries : Plan → ClosureProperty → Prop
  | done (.ok value), P => value.All P
  | done (.error _), _ | fetch _, _ | close .., _ => True
  | write _ rest, P => rest.Carries P
  | define _ value rest, P => value.All P ∧ rest.Carries P
  | child _ rest, P => ∀ Q : ClosureProperty,
    (∀ id parameters body captured, P id parameters body captured →
      Q id parameters body captured) →
    ∀ value : Value, value.All Q → (rest value).Carries Q
  | enter id parameters body captured values, P =>
    P id parameters body captured ∧ ∀ value ∈ values, value.All P

theorem Carries.mono {plan : Plan} {P Q : ClosureProperty}
    (hPQ : ∀ id parameters body captured, P id parameters body captured →
      Q id parameters body captured) (h : plan.Carries P) : plan.Carries Q := by
  induction plan with
  | done result =>
    cases result with
    | ok value => exact Value.All.mono hPQ h
    | error halt => trivial
  | write text rest ih => exact ih h
  | define name value rest ih => exact ⟨h.1.mono hPQ, ih h.2⟩
  | fetch name => trivial
  | close parameters body => trivial
  | child node rest ih => exact fun R hQR => h R fun _ _ _ _ hP => hQR _ _ _ _ (hPQ _ _ _ _ hP)
  | enter id parameters body captured values =>
    exact ⟨hPQ _ _ _ _ h.1, fun value hvalue => (h.2 value hvalue).mono hPQ⟩

theorem carries_last (node : Node) (P : ClosureProperty) : (last node).Carries P :=
  fun _ _ _ hvalue => hvalue

theorem carries_children {nodes : List Node} {rest : List Value → Plan} {P : ClosureProperty}
    (hrest : ∀ Q : ClosureProperty,
      (∀ id parameters body captured, P id parameters body captured →
        Q id parameters body captured) →
      ∀ values : List Value, (∀ value ∈ values, value.All Q) → (rest values).Carries Q) :
    (children nodes rest).Carries P := by
  induction nodes generalizing rest P with
  | nil => exact hrest P (fun _ _ _ _ h => h) [] (by simp)
  | cons node nodes ih =>
    intro Q hPQ value hvalue
    refine ih fun R hQR values hvalues => ?_
    refine hrest R (fun _ _ _ _ h => hQR _ _ _ _ (hPQ _ _ _ _ h)) _ ?_
    intro x hx
    rcases List.mem_cons.1 hx with rfl | hx
    · exact hvalue.mono hQR
    · exact hvalues x hx

/-- The plan of a node has no closures of its own. -/
theorem carries_ofNode (node : Node) (P : ClosureProperty) : (ofNode node).Carries P := by
  cases node with
  | str value l => trivial
  | int value l => trivial
  | bool value l => trivial
  | var name l => trivial
  | function parameters body l => trivial
  | print operand l =>
    intro Q _ value hvalue
    cases h : value.printed <;> simp [h, Carries, hvalue]
  | letIn name operand next l =>
    intro Q _ value hvalue
    exact ⟨hvalue, carries_last next Q⟩
  | cond condition then_ otherwise l =>
    intro Q _ value _
    cases h : value.isTruthy <;> simp [h, carries_last]
  | call callee arguments l =>
    intro Q _ value hvalue
    cases value with
    | closure id parameters body captured =>
      by_cases h : arguments.length = parameters.length
      · rw [calling_of_length_eq h]
        exact carries_children fun R hQR values hvalues => ⟨hQR _ _ _ _ hvalue, hvalues⟩
      · rw [calling_of_length_ne h]
        trivial
    | _ => trivial
  | binary op lhs rhs l =>
    intro Q _ left hleft
    by_cases hand : op = .and
    · subst hand
      cases h : left.isTruthy <;> simp [h, Carries, carries_last, hleft]
    by_cases hor : op = .or
    · subst hor
      cases h : left.isTruthy <;> simp [h, Carries, carries_last, hleft]
    have hop : ∀ R : ClosureProperty,
        (∀ id parameters body captured, Q id parameters body captured →
          R id parameters body captured) →
        ∀ right : Value, right.All R → (done (op.apply left right)).Carries R := by
      intro R hQR right hright
      cases h : op.apply left right with
      | error halt => trivial
      | ok value =>
        have happlies := Operator.applies_apply hand hor (hleft.mono hQR) hright
        rw [h] at happlies
        exact happlies.all R
    cases op with
    | and => exact absurd rfl hand
    | or => exact absurd rfl hor
    | _ => exact hop
  | tuple lhs rhs l =>
    intro Q _ left hleft R hQR right hright
    exact ⟨hleft.mono hQR, hright⟩
  | first operand l =>
    intro Q _ value hvalue
    cases value with
    | tuple left right => exact hvalue.1
    | _ => trivial
  | second operand l =>
    intro Q _ value hvalue
    cases value with
    | tuple left right => exact hvalue.2
    | _ => trivial

end Plan

/-! ## Evaluation keeps stores valid -/

/-- How an evaluation in a valid store ends: the store is valid and has all the scopes that there
were, and a value that is yielded is valid in it. -/
structure Run.Keeps (m : Machine) (result : EStateM.Result Halt Machine Value) : Prop where
  store : (Run.machine result).store.Valid
  grows : m.store.scopes.size ≤ (Run.machine result).store.scopes.size
  value : ∀ x m', result = .ok x m' → x.Valid m'.store.scopes.size

namespace Run.Keeps

variable {m m' : Machine}

theorem error {halt : Halt} (hstore : m'.store.Valid)
    (hgrows : m.store.scopes.size ≤ m'.store.scopes.size) : Run.Keeps m (.error halt m') :=
  ⟨hstore, hgrows, fun _ _ h => nomatch h⟩

theorem ok {x : Value} (hstore : m'.store.Valid)
    (hgrows : m.store.scopes.size ≤ m'.store.scopes.size) (hx : x.Valid m'.store.scopes.size) :
    Run.Keeps m (.ok x m') := by
  refine ⟨hstore, hgrows, ?_⟩
  intro y m'' h
  cases h
  exact hx

theorem leave {result : EStateM.Result Halt Machine Value} (hresult : Run.Keeps m result)
    (location : Option Location) : Run.Keeps m (Run.leave location result) := by
  cases result with
  | error halt m' => exact .error hresult.store hresult.grows
  | ok value m' => exact .ok hresult.store hresult.grows (hresult.value value m' rfl)

theorem of_le {result : EStateM.Result Halt Machine Value} (hresult : Run.Keeps m' result)
    (h : m.store.scopes.size ≤ m'.store.scopes.size) : Run.Keeps m result :=
  ⟨hresult.store, Nat.le_trans h hresult.grows, hresult.value⟩

end Run.Keeps

/-- Carrying out a plan keeps stores valid, if evaluating nodes does. -/
theorem Plan.run_keeps (settings : Settings) {eval : Node → ScopeId → Run Value}
    (heval : ∀ node e (m : Machine), m.store.Valid → e < m.store.scopes.size →
      Run.Keeps m (eval node e m))
    (plan : Plan) (e : ScopeId) (m : Machine) (hm : m.store.Valid) (he : e < m.store.scopes.size)
    (hplan : plan.Carries fun _ _ _ captured => captured < m.store.scopes.size) :
    Run.Keeps m (plan.run settings eval e m) := by
  induction plan generalizing m with
  | done result =>
    cases result with
    | error halt => exact .error hm (Nat.le_refl _)
    | ok value => exact .ok hm (Nat.le_refl _) hplan
  | write text rest ih => exact (ih (m.wrote text) hm he hplan).of_le (Nat.le_refl _)
  | define name value rest ih =>
    have hrest := ih (m.bound settings e name value) (by simpa using hm.define hplan.1 e name)
      (by simpa using he) (by simpa using hplan.2)
    exact hrest.of_le (by simp)
  | fetch name =>
    simp only [run]
    cases h : m.store.lookup e name with
    | none => exact .error hm (Nat.le_refl _)
    | some value => exact .ok hm (Nat.le_refl _) (hm.lookup h)
  | close parameters body =>
    exact .ok (hm.newClosure parameters body e) (Nat.le_refl _) he
  | child node rest ih =>
    have hnode := heval node e m hm he
    simp only [run]
    cases h : eval node e m with
    | error halt m' =>
      rw [h] at hnode
      exact hnode
    | ok value m' =>
      rw [h] at hnode
      have hgrows : m.store.scopes.size ≤ m'.store.scopes.size := hnode.grows
      refine (ih value m' hnode.store (Nat.lt_of_lt_of_le he hgrows) ?_).of_le hgrows
      exact hplan _ (fun _ _ _ _ hlt => Nat.lt_of_lt_of_le hlt hgrows) value
        (hnode.value value m' rfl)
  | enter id parameters body captured values =>
    obtain ⟨hcaptured, hvalues⟩ := hplan
    have hstore : (m.entered settings parameters captured values).store.Valid := by
      rw [Machine.store_entered]
      exact hm.enter hcaptured hvalues parameters
    exact (heval body _ _ hstore (by simp)).of_le (by simp)

/-- Evaluation in a scope of a valid store keeps it valid, and yields a valid value if any. -/
theorem evaluate_keeps (settings : Settings) (budget : Nat) (node : Node) (e : ScopeId)
    (m : Machine) (hm : m.store.Valid) (he : e < m.store.scopes.size) :
    Run.Keeps m (evaluate settings budget node e m) := by
  refine evaluate_induction (P := fun _ e m result => m.store.Valid → e < m.store.scopes.size →
    Run.Keeps m result) ?_ ?_ ?_ budget node e m hm he
  · intro _ _ m hm _
    exact .error hm (Nat.le_refl _)
  · intro _ _ m _ hm _
    exact .error (by simpa using hm) (by simp)
  · intro eval heval node e m _ hm he
    have hrun := Plan.run_keeps settings heval (.ofNode node) e (m.started settings node.kind)
      (by simpa using hm) (by simpa using he) (Plan.carries_ofNode node _)
    exact (hrun.of_le (by simp)).leave node.location

end Rinha
