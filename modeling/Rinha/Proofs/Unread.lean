import Rinha.Proofs.Correspondence
import Rinha.Proofs.Depth
import Rinha.Proofs.DepthLimit
import Rinha.Proofs.Validity

/-!
# Bindings that are not read

A name that no variable has in a node, nor in the body of a closure that the node can come to call,
is never looked up.  So it makes no difference what a scope binds under that name.  Neither does it
make a difference if the evaluation starts less deep, or may use more of the host, unless the deeper
one is cut short.

## Main definitions

* `Store.without` -- a store in which one scope does not bind a name.
* `Node.ignores` -- no variable at or below a node has a name, not even in the body of a function.
* `Plan.Ignores`, `Plan.ignores_ofNode` -- plans of such nodes look up other names.
* `Store.Ignores` -- a set of scopes that such nodes do not leave, and whose closures are such.
* `Run.Agrees`, `evaluate_agrees` -- runs that do the same, apart from the binding and the depth.
-/

namespace Rinha

/-! ## Leaving out a binding -/

/-- The bindings of all names but one. -/
def Bindings.without (name : String) (bindings : Bindings) : Bindings :=
  bindings.filter fun binding => binding.1 != name

/-- The store in which a scope does not bind a name. -/
def Store.without (store : Store) (e : ScopeId) (name : String) : Store :=
  { store with scopes := store.scopes.modify e fun scope =>
      { scope with bindings := scope.bindings.without name } }

namespace Bindings

variable {name other : String}

theorem get?_without (h : other ≠ name) (bindings : Bindings) :
    (bindings.without name).get? other = bindings.get? other := by
  induction bindings with
  | nil => rfl
  | cons binding rest ih =>
    simp only [without] at ih
    by_cases hname : binding.1 = name
    · have hother : ¬ binding.1 = other := fun hother => h (hother.symm.trans hname)
      simp only [without, List.filter_cons, hname, bne_self_eq_false, Bool.false_eq_true,
        ↓reduceIte, ih, get?]
      simp [Ne.symm h]
    · simp only [without, List.filter_cons, bne_iff_ne, ne_eq, hname, not_false_eq_true, ↓reduceIte,
        get?, ih]

/-- Binding the name itself is not seen. -/
theorem without_set_self (name : String) (value : Value) (bindings : Bindings) :
    (bindings.set name value).without name = bindings.without name := by
  induction bindings with
  | nil => simp [set, without]
  | cons binding rest ih =>
    simp only [without] at ih
    by_cases hname : binding.1 = name
    · simp [set, without, hname]
    · simp [set, without, hname, ih]

theorem without_set_of_ne (h : other ≠ name) (value : Value) (bindings : Bindings) :
    (bindings.set other value).without name = (bindings.without name).set other value := by
  induction bindings with
  | nil => simp [set, without, h]
  | cons binding rest ih =>
    simp only [without] at ih
    by_cases hname : binding.1 = name
    · simp [set, without, hname, ih, Ne.symm h]
    · by_cases hother : binding.1 = other
      · simp [set, without, hother, h]
      · simp [set, without, hname, hother, ih]

end Bindings

namespace Store

variable {s s' : Store} {e : ScopeId} {name : String}

theorem scopes_without (s : Store) (e : ScopeId) (name : String) (id : ScopeId) :
    (s.without e name).scopes[id]? = (s.scopes[id]?).map fun scope =>
      if e = id then { scope with bindings := scope.bindings.without name } else scope := by
  simp only [without, Array.getElem?_modify]
  by_cases h : e = id
  · simp [h]
  · simp [h]

@[simp] theorem size_without : (s.without e name).scopes.size = s.scopes.size := by
  simp [without]

/-- Other names are found as before. -/
theorem lookup_without {other : String} (h : other ≠ name) (s : Store) (e id : ScopeId) :
    (s.without e name).lookup id other = s.lookup id other := by
  have key : ∀ steps id,
      (s.without e name).lookupWithin other steps id = s.lookupWithin other steps id := by
    intro steps
    induction steps with
    | zero => exact fun _ => rfl
    | succ steps ih =>
      intro id
      simp only [lookupWithin, scopes_without]
      cases s.scopes[id]? with
      | none => rfl
      | some scope =>
        have hget : (if e = id then { scope with bindings := scope.bindings.without name }
            else scope : Scope).bindings.get? other = scope.bindings.get? other := by
          split
          · exact Bindings.get?_without h scope.bindings
          · rfl
        have hparent : (if e = id then { scope with bindings := scope.bindings.without name }
            else scope : Scope).parent = scope.parent := by
          split <;> rfl
        simp only [Option.map_some, hget, hparent, ih]
  exact key (id + 1) id

/-- Binding the name in the scope is not seen. -/
theorem without_define_self (s : Store) (e : ScopeId) (name : String) (value : Value) :
    (s.define e name value).without e name = s.without e name := by
  simp only [without, define, mk.injEq, and_true]
  refine Array.ext_getElem? fun id => ?_
  simp only [Array.getElem?_modify]
  by_cases h : e = id
  · simp [h, Function.comp_def, Bindings.without_set_self]
  · simp [h]

/-- Binding anything else is. -/
theorem without_define_of_ne {id : ScopeId} {other : String} (h : ¬ (id = e ∧ other = name))
    (s : Store) (value : Value) :
    (s.define id other value).without e name = (s.without e name).define id other value := by
  simp only [without, define, mk.injEq, and_true]
  refine Array.ext_getElem? fun i => ?_
  simp only [Array.getElem?_modify]
  by_cases he : e = i
  · by_cases hid : id = i
    · have hother : other ≠ name := fun hother => h ⟨hid.trans he.symm, hother⟩
      simp [he, hid, Function.comp_def, Bindings.without_set_of_ne hother]
    · simp [he, hid]
  · by_cases hid : id = i <;> simp [he, hid]

/-- Stores that are the same apart from the binding stay so when a name is bound. -/
theorem without_define_congr (h : s.without e name = s'.without e name) (id : ScopeId)
    (other : String) (value : Value) :
    (s.define id other value).without e name = (s'.define id other value).without e name := by
  by_cases hself : id = e ∧ other = name
  · obtain ⟨rfl, rfl⟩ := hself
    rw [without_define_self, without_define_self, h]
  · rw [without_define_of_ne hself, without_define_of_ne hself, h]

theorem size_eq_of_without (h : s.without e name = s'.without e name) :
    s.scopes.size = s'.scopes.size := by
  rw [← size_without (s := s), h, size_without]

/-- A scope that is made is another one. -/
theorem without_newScope (he : e < s.scopes.size) (parent : Option ScopeId) (bindings : Bindings) :
    (s.newScope parent bindings).2.without e name =
      ((s.without e name).newScope parent bindings).2 := by
  simp only [without, newScope, mk.injEq, and_true]
  refine Array.ext_getElem? fun id => ?_
  rw [Array.getElem?_modify, Array.getElem?_push, Array.getElem?_push, Array.getElem?_modify,
    Array.size_modify]
  by_cases hid : id = s.scopes.size
  · simp [hid, Nat.ne_of_lt he]
  · simp [hid]

end Store

/-! ## Nodes in which no variable has a name -/

namespace Node

mutual

/-- Whether no variable at or below a node has a name, not even in the body of a function. -/
def ignores (name : String) : Node → Bool
  | .str .. | .int .. | .bool .. => true
  | .var other _ => other != name
  | .print operand _ | .first operand _ | .second operand _ => operand.ignores name
  | .letIn _ operand next _ => operand.ignores name && next.ignores name
  | .cond condition then_ otherwise _ =>
    condition.ignores name && then_.ignores name && otherwise.ignores name
  | .function _ body _ => body.ignores name
  | .call callee arguments _ => callee.ignores name && allIgnore name arguments
  | .binary _ lhs rhs _ | .tuple lhs rhs _ => lhs.ignores name && rhs.ignores name

/-- Whether no variable at or below several nodes has a name. -/
def allIgnore (name : String) : List Node → Bool
  | [] => true
  | node :: nodes => node.ignores name && allIgnore name nodes

end

end Node

namespace Plan

variable {name : String}

/-- A plan that looks up other names only, and whose nodes do so too. -/
def Ignores (name : String) : Plan → Prop
  | done _ | enter .. => True
  | write _ rest | define _ _ rest => rest.Ignores name
  | fetch other => other ≠ name
  | close _ body => body.ignores name
  | child node rest => node.ignores name ∧ ∀ value, (rest value).Ignores name

theorem ignores_children {nodes : List Node} {rest : List Value → Plan}
    (hnodes : Node.allIgnore name nodes) (hrest : ∀ values, (rest values).Ignores name) :
    (children nodes rest).Ignores name := by
  induction nodes generalizing rest with
  | nil => exact hrest []
  | cons first nodes ih =>
    rw [Node.allIgnore, Bool.and_eq_true] at hnodes
    exact ⟨hnodes.1, fun value => ih hnodes.2 fun values => hrest (value :: values)⟩

theorem ignores_last {node : Node} (h : node.ignores name) : (last node).Ignores name :=
  ⟨h, fun _ => trivial⟩

theorem ignores_component (tag : String) (pick : Value → Value → Value) (value : Value) :
    (component tag pick value).Ignores name := by
  cases value <;> trivial

/-- The plan of a node looks up no name that no variable in the node has. -/
theorem ignores_ofNode {node : Node} (h : node.ignores name) : (ofNode node).Ignores name := by
  cases node with
  | str value l => trivial
  | int value l => trivial
  | bool value l => trivial
  | var other l => exact bne_iff_ne.1 h
  | function parameters body l => exact h
  | print operand l =>
    refine ⟨h, fun value => ?_⟩
    cases hvalue : value.printed <;> simp [hvalue, Ignores]
  | letIn bound operand next l =>
    rw [Node.ignores, Bool.and_eq_true] at h
    exact ⟨h.1, fun _ => ignores_last h.2⟩
  | cond condition then_ otherwise l =>
    rw [Node.ignores, Bool.and_eq_true, Bool.and_eq_true] at h
    refine ⟨h.1.1, fun value => ?_⟩
    cases hvalue : value.isTruthy
    · simpa [hvalue] using ignores_last h.2
    · simpa [hvalue] using ignores_last h.1.2
  | call callee arguments l =>
    rw [Node.ignores, Bool.and_eq_true] at h
    refine ⟨h.1, fun value => ?_⟩
    cases value with
    | closure id parameters body captured =>
      by_cases hlength : arguments.length = parameters.length
      · rw [calling_of_length_eq hlength]
        exact ignores_children h.2 fun _ => trivial
      · rw [calling_of_length_ne hlength]
        trivial
    | _ => trivial
  | binary op lhs rhs l =>
    rw [Node.ignores, Bool.and_eq_true] at h
    refine ⟨h.1, fun left => ?_⟩
    cases op with
    | and => cases hleft : left.isTruthy <;> simp [hleft, Ignores, ignores_last h.2]
    | or => cases hleft : left.isTruthy <;> simp [hleft, Ignores, ignores_last h.2]
    | _ => exact ⟨h.2, fun _ => trivial⟩
  | tuple lhs rhs l =>
    rw [Node.ignores, Bool.and_eq_true] at h
    exact ⟨h.1, fun _ => ⟨h.2, fun _ => trivial⟩⟩
  | first operand l => exact ⟨h, ignores_component "First" fun left _ => left⟩
  | second operand l => exact ⟨h, ignores_component "Second" fun _ right => right⟩

end Plan

/-! ## Scopes whose closures ignore a name -/

/-- Closures over scopes of a kind, in whose bodies no variable has a name. -/
def Value.Ignoring (name : String) (inside : ScopeId → Prop) : ClosureProperty :=
  fun _ _ body captured => inside captured ∧ body.ignores name

/-- Some scopes of a store, among them all that are still to be made, hang off each other only, and
bind only closures over each other in whose bodies no variable has a name. -/
structure Store.Ignores (name : String) (inside : ScopeId → Prop) (s : Store) : Prop where
  fresh : ∀ id, s.scopes.size ≤ id → inside id
  parents : ∀ (id : ScopeId) (scope : Scope), inside id → s.scopes[id]? = some scope →
    ∀ parent, scope.parent = some parent → inside parent
  values : ∀ (id : ScopeId) (scope : Scope), inside id → s.scopes[id]? = some scope →
    ∀ other x, scope.bindings.get? other = some x → x.All (Value.Ignoring name inside)

namespace Store.Ignores

variable {name : String} {inside : ScopeId → Prop} {s : Store}

theorem define (h : s.Ignores name inside) {x : Value} (hx : x.All (Value.Ignoring name inside))
    (e : ScopeId) (other : String) : (s.define e other x).Ignores name inside where
  fresh := by
    rw [size_define]
    exact h.fresh
  parents := by
    intro id scope hid hscope
    rw [scopes_define, Option.map_eq_some_iff] at hscope
    obtain ⟨old, hold, rfl⟩ := hscope
    have hparent := h.parents id old hid hold
    split <;> exact hparent
  values := by
    intro id scope hid hscope n y hy
    rw [scopes_define, Option.map_eq_some_iff] at hscope
    obtain ⟨old, hold, rfl⟩ := hscope
    split at hy
    · by_cases hn : n = other
      · subst hn
        rw [Bindings.get?_set_self] at hy
        cases hy
        exact hx
      · rw [Bindings.get?_set_of_ne hn] at hy
        exact h.values id old hid hold n y hy
    · exact h.values id old hid hold n y hy

theorem enter (h : s.Ignores name inside) {captured : ScopeId} (hcaptured : inside captured)
    {values : List Value} (hvalues : ∀ x ∈ values, x.All (Value.Ignoring name inside))
    (parameters : List String) :
    (s.newScope (some captured) (.ofArguments parameters values)).2.Ignores name inside where
  fresh := by
    rw [size_newScope]
    exact fun id hid => h.fresh id (Nat.le_of_succ_le hid)
  parents := by
    intro id scope hid hscope p hp
    rw [scopes_newScope] at hscope
    split at hscope
    · cases hscope
      cases hp
      exact hcaptured
    · exact h.parents id scope hid hscope p hp
  values := by
    intro id scope hid hscope n y hy
    rw [scopes_newScope] at hscope
    split at hscope
    · cases hscope
      have hmem := Bindings.mem_ofArguments (Bindings.mem_of_get?_eq_some hy)
      exact hvalues y (List.of_mem_zip hmem).2
    · exact h.values id scope hid hscope n y hy

theorem newClosure (h : s.Ignores name inside) (parameters : List String) (body : Node)
    (e : ScopeId) : (s.newClosure parameters body e).2.Ignores name inside :=
  ⟨h.fresh, h.parents, h.values⟩

theorem lookup (h : s.Ignores name inside) {e : ScopeId} (he : inside e) {other : String}
    {x : Value} (hx : s.lookup e other = some x) : x.All (Value.Ignoring name inside) := by
  obtain ⟨id, scope, hid, hscope, hvalue⟩ := exists_get?_of_lookup h.parents he hx
  exact h.values id scope hid hscope other x hvalue

end Store.Ignores

/-! ## Runs that do the same apart from the binding -/

/-- Machines that are the same apart from what one scope binds under a name, the trace and the
depth; and in the first of them, some scopes have to do only with closures that ignore the name. -/
structure Machine.Agrees (name : String) (inside : ScopeId → Prop) (e : ScopeId) (m m' : Machine) :
    Prop where
  ignores : m.store.Ignores name inside
  scope : e < m.store.scopes.size
  store : m.store.without e name = m'.store.without e name
  output : m.output = m'.output

/-- Computations that end in the same way at such machines, unless a limit cut the first one
short. -/
inductive Run.Agrees (name : String) (inside : ScopeId → Prop) (e : ScopeId) :
    EStateM.Result Halt Machine Value → EStateM.Result Halt Machine Value → Prop
  | ok {value : Value} {m m' : Machine} : value.All (Value.Ignoring name inside) →
    m.Agrees name inside e m' → Agrees name inside e (.ok value m) (.ok value m')
  | error {halt : Halt} {m m' : Machine} :
    m.Agrees name inside e m' → Agrees name inside e (.error halt m) (.error halt m')
  | cut {halt : Halt} {m : Machine} {result : EStateM.Result Halt Machine Value} :
    halt.isLimit → Agrees name inside e (.error halt m) result

section

variable {name : String} {inside : ScopeId → Prop} {e : ScopeId}

namespace Machine.Agrees

variable {m m' : Machine}

/-- What happens to the trace and the depth makes no difference. -/
theorem of_eq {n n' : Machine} (h : m.Agrees name inside e m') (hstore : n.store = m.store)
    (hstore' : n'.store = m'.store) (houtput : n.output = m.output)
    (houtput' : n'.output = m'.output) : n.Agrees name inside e n' where
  ignores := hstore ▸ h.ignores
  scope := hstore ▸ h.scope
  store := by rw [hstore, hstore', h.store]
  output := by rw [houtput, houtput', h.output]

theorem wrote (h : m.Agrees name inside e m') (text : String) :
    (m.wrote text).Agrees name inside e (m'.wrote text) :=
  ⟨h.ignores, h.scope, h.store, congrArg (· ++ text) h.output⟩

theorem started (h : m.Agrees name inside e m') (settings : Settings) (kind : Node.Kind) :
    (m.started settings kind).Agrees name inside e (m'.started settings kind) :=
  h.of_eq (Machine.store_started ..) (Machine.store_started ..) (Machine.output_started ..)
    (Machine.output_started ..)

theorem ended (h : m.Agrees name inside e m') : m.ended.Agrees name inside e m'.ended :=
  h.of_eq rfl rfl rfl rfl

theorem bound (h : m.Agrees name inside e m') {value : Value}
    (hvalue : value.All (Value.Ignoring name inside)) (settings : Settings) (scope : ScopeId)
    (other : String) :
    (m.bound settings scope other value).Agrees name inside e
      (m'.bound settings scope other value) where
  ignores := by simpa using h.ignores.define hvalue scope other
  scope := by simpa using h.scope
  store := by simpa using Store.without_define_congr h.store scope other value
  output := by simpa using h.output

theorem closed (h : m.Agrees name inside e m') (parameters : List String) (body : Node)
    (scope : ScopeId) :
    (m.closed parameters body scope).Agrees name inside e (m'.closed parameters body scope) where
  ignores := h.ignores.newClosure parameters body scope
  scope := h.scope
  store := congrArg (fun s => (s.newClosure parameters body scope).2) h.store
  output := h.output

theorem entered (h : m.Agrees name inside e m') {captured : ScopeId} (hcaptured : inside captured)
    {values : List Value} (hvalues : ∀ x ∈ values, x.All (Value.Ignoring name inside))
    (settings : Settings) (parameters : List String) :
    (m.entered settings parameters captured values).Agrees name inside e
      (m'.entered settings parameters captured values) where
  ignores := by simpa using h.ignores.enter hcaptured hvalues parameters
  scope := by simpa using Nat.lt_succ_of_lt h.scope
  store := by
    have hscope' : e < m'.store.scopes.size := Store.size_eq_of_without h.store ▸ h.scope
    rw [Machine.store_entered, Machine.store_entered, Store.without_newScope h.scope,
      Store.without_newScope hscope', h.store]
  output := by simpa using h.output

end Machine.Agrees

theorem Run.Agrees.leave {result result' : EStateM.Result Halt Machine Value}
    (h : Run.Agrees name inside e result result') (location : Option Location) :
    Run.Agrees name inside e (Run.leave location result) (Run.leave location result') := by
  cases h with
  | ok hvalue hm => exact .ok hvalue hm.ended
  | error hm => exact .error hm.ended
  | cut hlimit => exact .cut (by simpa using hlimit)

/-- Carrying out a plan that looks up other names only does the same, if evaluating nodes does. -/
theorem Plan.run_agrees_of_ignores {settings : Settings} {eval eval' : Node → ScopeId → Run Value}
    (hdepth : ∀ node scope (m : Machine), (Run.machine (eval node scope m)).depth = m.depth)
    (hdepth' : ∀ node scope (m : Machine), (Run.machine (eval' node scope m)).depth = m.depth)
    (heval : ∀ node scope (m m' : Machine), node.ignores name → inside scope →
      m.Agrees name inside e m' → m'.depth ≤ m.depth →
      Run.Agrees name inside e (eval node scope m) (eval' node scope m'))
    {plan : Plan} (hplan : plan.Ignores name) (hcarries : plan.Carries (Value.Ignoring name inside))
    {scope : ScopeId} (hscope : inside scope) {m m' : Machine} (h : m.Agrees name inside e m')
    (hm : m'.depth ≤ m.depth) :
    Run.Agrees name inside e (plan.run settings eval scope m)
      (plan.run settings eval' scope m') := by
  induction plan generalizing m m' with
  | done result =>
    cases result with
    | ok value => exact .ok hcarries h
    | error halt => exact .error h
  | write text rest ih => exact ih hplan hcarries (h.wrote text) hm
  | define other value rest ih =>
    exact ih hplan hcarries.2 (h.bound hcarries.1 settings scope other) (by simpa using hm)
  | fetch other =>
    have hlookup : m'.store.lookup scope other = m.store.lookup scope other := by
      rw [← Store.lookup_without hplan m.store e, h.store, Store.lookup_without hplan]
    simp only [run, hlookup]
    cases hvalue : m.store.lookup scope other with
    | some value => exact .ok (h.ignores.lookup hscope hvalue) h
    | none => exact .error h
  | close parameters body =>
    have hnext : m'.store.nextClosure = m.store.nextClosure :=
      (congrArg Store.nextClosure h.store).symm
    simp only [run, Store.newClosure, hnext]
    exact .ok ⟨hscope, hplan⟩ (h.closed parameters body scope)
  | child node rest ih =>
    have hnode := heval node scope m m' hplan.1 hscope h hm
    have hsame := hdepth node scope m
    have hsame' := hdepth' node scope m'
    simp only [run]
    generalize eval node scope m = result at hnode hsame ⊢
    generalize eval' node scope m' = result' at hnode hsame' ⊢
    cases hnode with
    | ok hvalue hagrees =>
      rw [Run.machine_ok] at hsame hsame'
      exact ih _ (hplan.2 _) (hcarries _ (fun _ _ _ _ hP => hP) _ hvalue) hagrees (by omega)
    | error hagrees => exact .error hagrees
    | cut hlimit => exact .cut hlimit
  | enter id parameters body captured values =>
    have hsize : m'.store.scopes.size = m.store.scopes.size :=
      (Store.size_eq_of_without h.store).symm
    simp only [run, hsize]
    exact heval body _ _ _ hcarries.1.2 (h.ignores.fresh _ (Nat.le_refl _))
      (h.entered hcarries.1.1 hcarries.2 settings parameters) (by simpa using hm)

/-- Evaluating a node in which no variable has the name does the same at machines that are the same
apart from its binding, also if it starts less deep and within a greater budget. -/
theorem evaluate_agrees (settings : Settings) {budget budget' : Nat} (hbudget : budget ≤ budget')
    {node : Node} (hnode : node.ignores name) {scope : ScopeId} (hscope : inside scope)
    {m m' : Machine} (h : m.Agrees name inside e m') (hm : m'.depth ≤ m.depth) :
    Run.Agrees name inside e (evaluate settings budget node scope m)
      (evaluate settings budget' node scope m') := by
  induction budget generalizing budget' node scope m m' with
  | zero => exact .cut rfl
  | succ budget ih =>
    obtain ⟨budget', rfl⟩ : ∃ n, budget' = n + 1 := ⟨budget' - 1, by omega⟩
    by_cases hdepth : settings.maxDepth ≤ m.depth
    · rw [evaluate_refused settings budget node scope m hdepth]
      exact .cut (Halt.isLimit_refusal ..)
    · have hgranted : m.depth < settings.maxDepth := Int.not_le.1 hdepth
      rw [evaluate_granted settings budget node scope m hgranted,
        evaluate_granted settings budget' node scope m' (Int.lt_of_le_of_lt hm hgranted)]
      refine Run.Agrees.leave ?_ node.location
      exact Plan.run_agrees_of_ignores (depth_evaluate settings budget)
        (depth_evaluate settings budget')
        (fun _ _ _ _ hnode hscope h hm => ih (Nat.le_of_succ_le_succ hbudget) hnode hscope h hm)
        (Plan.ignores_ofNode hnode) (Plan.carries_ofNode node _) hscope
        (h.started settings node.kind) (by simpa using hm)

end

end Rinha
